import IntervalCalc.Proofs.Parsing.Parallel

/-!
Every step of a parse of a text is one of the longer text as well. An operand that is followed by
a keyword or a bracket, or held tighter than a separator, ends in both texts at the same place.
-/

namespace IntervalCalc

variable {α : Type} [Scalar α] [Numeral α] {tail : List Char} {w : Power}

theorem expect_carries (joint : Joint tail w) (name : String) :
    Carries tail Anywhere (Parser.expect (noted α) name) (Parser.expect (plain α) name) := by
  refine Carries.next_bind joint ?_ ?_
  · intro token s s' value ends ran
    obtain ⟨kind, location⟩ := token
    obtain rfl : kind = .endOfInput := ends
    cases ran
  · intro token token' same _
    rw [Parser.isOperator_congr same]
    split
    · exact .pure ()
    · exact .throw _

/-- A keyword or a bracket that was expected is in the text. -/
theorem inside_of_expect {β : Type} {name : String} {f : Unit → ParseM (ParseState × Log α) β}
    {s s' : ParseState × Log α} {value : β}
    (ran : (Parser.expect (noted α) name >>= f) s = .ok value s') : Inside α s.1 := by
  intro ends
  obtain ⟨_, middle, expected, _⟩ := Run.bind_eq_ok ran
  obtain ⟨token, after, read, matched⟩ := Run.bind_eq_ok expected
  obtain ⟨r, ahead, rfl, _⟩ := TokenSource.direct_logged_next_ok.mp read
  obtain ⟨r', ahead', finished, _⟩ := ends.ahead .operator
  cases ahead.symm.trans ahead'
  unfold Parser.isOperator at matched
  rw [finished] at matched
  cases matched

/-- An operator is looked for in both texts alike, unless it is the separator. -/
theorem skipIf_carries (joint : Joint tail w) {name : String} (other : name ≠ ";") :
    Carries tail Anywhere (Parser.skipIf (noted α) name) (Parser.skipIf (plain α) name) := by
  constructor
  · intro s s' value doomed ran
    exact ((doomed_persists tail).skipIf name).keeps doomed ran
  · intro s s' t value parallel ran _ _
    obtain ⟨token, middle, peeked, rest⟩ := Run.bind_eq_ok ran
    obtain ⟨r, read, rfl, rfl⟩ := TokenSource.direct_logged_peek_ok.mp peeked
    obtain ⟨r', read', looked, same⟩ := parallel.seen joint read
    have peeked' := TokenSource.direct_peek_ok.mpr ⟨r', read', rfl, rfl⟩
    split at rest
    next matched =>
      have more : r.token.kind ≠ .endOfInput := by
        intro ends
        unfold Parser.isOperator at matched
        rw [ends] at matched
        cases matched
      have kind : r'.token.kind = r.token.kind := same.resolve_right fun end_ => more end_.1
      obtain ⟨_, after, consumed, done⟩ := Run.bind_eq_ok rest
      obtain ⟨r₂, again, rfl, rfl⟩ := TokenSource.direct_logged_next_ok.mp consumed
      cases (ParseState.ahead_again read).symm.trans again
      cases done
      obtain ⟨r₃, read₃, _, _, parallel'⟩ := parallel.ahead joint read more
      cases read'.symm.trans read₃
      refine ⟨t.consume r', ?_, parallel'⟩
      have consumed' := TokenSource.direct_next_ok.mpr
        ⟨r', ParseState.ahead_again read', rfl, rfl⟩
      rw [Parser.skipIf, Run.bind_ok peeked', Parser.isOperator_congr kind, if_pos matched,
        Run.bind_ok consumed']
      rfl
    next missed =>
      cases rest
      -- at the end of the first text the longer one has the separator, which is not looked for
      have missed' : ¬ Parser.isOperator r'.token name := by
        rcases same with kind | ⟨_, _, separator⟩
        · rw [Parser.isOperator_congr kind]
          exact missed
        · unfold Parser.isOperator
          rw [separator]
          intro equal
          exact other (eq_of_beq equal).symm
      refine ⟨_, ?_, looked⟩
      rw [Parser.skipIf, Run.bind_ok peeked', if_neg missed']
      rfl

theorem skipIf_at_end {s s' : ParseState × Log α} {name : String} {found : Bool}
    (ends : AtEnd α s.1) (ran : Parser.skipIf (noted α) name s = .ok found s') :
    found = false ∧ AtEnd α s'.1 := by
  obtain ⟨token, middle, peeked, rest⟩ := Run.bind_eq_ok ran
  obtain ⟨r, read, rfl, rfl⟩ := TokenSource.direct_logged_peek_ok.mp peeked
  obtain ⟨r', read', finished, _⟩ := ends.ahead .operator
  cases read.symm.trans read'
  have missed : Parser.isOperator r.token name = false := by
    unfold Parser.isOperator
    rw [finished]
  rw [missed] at rest
  cases rest
  exact ⟨rfl, ends.look _⟩

theorem parameters_carries (location location' : Location) (list : List (Expr α)) :
    Carries tail Anywhere (Parser.parameters (σ := ParseState × Log α) location list)
      (Parser.parameters location' list) := by
  induction list with
  | nil => exact .pure []
  | cons first rest ih =>
      cases first with
      | symbol symbol =>
          exact ih.bind fun rest => .pure _
      | _ => exact .throw _

omit [Scalar α] in
theorem parameters_ok {σ : Type} {location : Location} {list : List (Expr α)} {s s' : σ}
    {names : List Symbol} (ran : Parser.parameters location list s = .ok names s') : s' = s := by
  induction list generalizing s s' names with
  | nil => cases ran; rfl
  | cons first rest ih =>
      cases first with
      | symbol symbol =>
          obtain ⟨others, middle, first, done⟩ := Run.bind_eq_ok ran
          cases done
          exact ih first
      | _ => cases ran

theorem declaredName_carries {token token' : Token α} (same : token'.kind = token.kind) :
    Carries tail Anywhere (Parser.declaredName (σ := ParseState × Log α) token)
      (Parser.declaredName token') := by
  unfold Parser.declaredName
  rw [same]
  split
  · exact .pure _
  · split
    · exact .pure _
    · exact .throw _
  · exact .throw _

theorem declare_carries {name : String} (identifier : isIdentifier name.toList) (fixity : Fixity)
    (power : Power) :
    Carries tail Anywhere ((noted α).declare name fixity power)
      ((plain α).declare name fixity power) := by
  constructor
  · intro s s' value doomed ran
    exact ((doomed_persists tail).declare fixity power identifier).keeps doomed ran
  · intro s s' t value parallel ran alive _
    cases ran
    have above : 10 < power := by
      apply Nat.lt_of_not_le
      intro low
      exact alive (.inl fun all => Nat.not_lt_of_le low (all name fixity power (by simp)))
    exact ⟨_, rfl, parallel.declare identifier fixity above⟩

variable {E : Power → ParseM (ParseState × Log α) (Expr α)} {e : Power → ParseM ParseState (Expr α)}
variable {L : String → ParseM (ParseState × Log α) (List (Expr α))}
variable {l : String → ParseM ParseState (List (Expr α))}

/-- An expression up to a keyword or a bracket ends before the end of the first text. -/
theorem enclosed_carries {β : Type} {kind : ParseState → Prop} (joint : Joint tail w)
    (inside : ∀ q, Carries tail (Inside α) (E q) (e q)) (closing : String)
    {f : Expr α → ParseM (ParseState × Log α) β} {g : Expr α → ParseM ParseState β}
    (later : ∀ inner, Carries tail kind (f inner) (g inner)) :
    Carries tail kind
      (do
        let inner ← E 0
        Parser.expect (noted α) closing
        f inner)
      (do
        let inner ← e 0
        Parser.expect (plain α) closing
        g inner) := by
  refine (inside 0).bind_of ?_ ?_
  · intro inner s s' result ran
    exact inside_of_expect ran
  · intro inner _ _ _
    exact (expect_carries joint closing).bind fun _ => later inner

theorem arguments_carries (joint : Joint tail w)
    (inside : ∀ q, Carries tail (Inside α) (E q) (Direct.expression Lexer.standard q))
    (closing : String) (n : Nat) :
    Carries tail Anywhere (Parser.arguments (noted α) E closing n)
      (Direct.arguments Lexer.standard closing) := by
  induction n with
  | zero =>
      refine .fails fun s s' value ran => ?_
      obtain ⟨token, middle, _, failed⟩ := Run.bind_eq_ok ran
      exact Parser.unexpected_ne_ok failed
  | succ n ih =>
      rw [funext (Direct.arguments_eq (α := α) closing)]
      refine (inside 0).bind_of ?_ ?_
      · intro first s s' result ran ends
        obtain ⟨found, middle, skipped, rest⟩ := Run.bind_eq_ok ran
        obtain ⟨rfl, ends'⟩ := skipIf_at_end ends skipped
        exact inside_of_expect rest ends'
      · intro first _ _ _
        refine (skipIf_carries joint (by decide)).bind fun more => ?_
        split
        · exact ih.bind fun rest => .pure _
        · exact (expect_carries joint closing).bind fun _ => .pure _

theorem definition_carries (joint : Joint tail w)
    (inside : ∀ q, Carries tail (Inside α) (E q) (e q)) (location location' : Location) :
    Carries tail Anywhere (Parser.definition (noted α) E location)
      (Parser.definition (plain α) e location') := by
  refine (inside 0).bind_of ?_ ?_
  · intro signature s s' result ran
    split at ran
    · obtain ⟨names, middle, known, rest⟩ := Run.bind_eq_ok ran
      rw [← parameters_ok known]
      exact inside_of_expect rest
    · cases ran
  · intro signature _ _ _
    split
    · refine (parameters_carries _ _ _).bind fun names => (expect_carries joint "is").bind fun _ => ?_
      exact enclosed_carries joint inside "end" fun body => .pure _
    · exact .throw _

theorem declaredPower_carries (joint : Joint tail w)
    (held : ∀ q, 10 ≤ q → Carries tail Anywhere (E q) (e q)) :
    Carries tail Anywhere (Parser.declaredPower (noted α) E) (Parser.declaredPower (plain α) e) := by
  refine Carries.peek_bind joint fun first first' => ?_
  refine (held 1000 (by decide)).bind fun operand => ?_
  split
  · split
    · exact .pure _
    · exact .throw _
  · exact .throw _

theorem declaration_carries (joint : Joint tail w)
    (held : ∀ q, 10 ≤ q → Carries tail Anywhere (E q) (e q)) (fixity : Fixity) :
    Carries tail Anywhere (Parser.declaration (noted α) E fixity)
      (Parser.declaration (plain α) e fixity) := by
  refine Carries.next_bind joint ?_ ?_
  · intro token s s' value ends ran
    obtain ⟨kind, location⟩ := token
    obtain rfl : kind = .endOfInput := ends
    cases ran
  · intro token token' same named
    refine (declaredName_carries same).bind_of (fun _ _ _ _ _ => trivial) ?_
    intro name s s' found
    have identifier := Parser.isIdentifier_of_declaredName named found
    refine (declaredPower_carries joint held).bind fun power => ?_
    exact (declare_carries identifier fixity power).bind fun _ => .pure _

theorem applyPrefix_carries (joint : Joint tail w)
    (held : ∀ q, 10 ≤ q → Carries tail Anywhere (E q) (e q))
    (inside : ∀ q, Carries tail (Inside α) (E q) (e q)) (location location' : Location)
    {rule : PrefixRule} (opened : ∀ q ∈ rule.openPower?, 10 ≤ q) :
    Carries tail Anywhere (Parser.applyPrefix (noted α) E location rule)
      (Parser.applyPrefix (plain α) e location' rule) := by
  cases rule with
  | unary op power => exact (held power (opened power rfl)).bind fun _ => .pure _
  | apply head power => exact (held power (opened power rfl)).bind fun _ => .pure _
  | group closing => exact enclosed_carries joint inside closing fun inner => .pure inner
  | branch =>
      refine enclosed_carries joint inside "then" fun condition => ?_
      refine enclosed_carries joint inside "else" fun consequence => ?_
      exact enclosed_carries joint inside "end" fun alternative => .pure _
  | function => exact definition_carries joint inside location location'
  | declare fixity => exact declaration_carries joint held fixity

theorem prefixForm_follows (joint : Joint tail w)
    (held : ∀ q, 10 ≤ q → Carries tail Anywhere (E q) (e q))
    (inside : ∀ q, Carries tail (Inside α) (E q) (e q)) {token token' : Token α}
    (same : token'.kind = token.kind) {s s' : ParseState × Log α} {t : ParseState} {value : Expr α}
    (parallel : Parallel tail s.1 t) (ran : Parser.prefixForm (noted α) E token s = .ok value s')
    (alive : ¬ Doomed tail s') :
    ∃ t', Parser.prefixForm (plain α) e token' t = .ok value t' ∧ Parallel tail s'.1 t' := by
  rcases Parser.prefixForm_ok ran with ⟨kind, rfl⟩ | ⟨name, operator, rule, kind, found, holds, ran⟩
  · exact ⟨t, Parser.prefixForm_literal (same.trans kind), parallel⟩
  · have opened := (parallel.grounded.steady found).1 rule holds
    obtain ⟨t', followed, parallel'⟩ := (applyPrefix_carries joint held inside token.location
      token'.location opened).carries parallel ran alive trivial
    refine ⟨t', ?_, parallel'⟩
    have known : ((plain α).view t).operators.find? name = some operator := by
      change t.operators.find? name = some operator
      rw [← parallel.operators]
      exact found
    rw [Parser.prefixForm_known (same.trans kind) (by rw [known]; exact holds)]
    exact followed

/-- A separator with nothing behind it is one in both texts, or the parse is doomed. -/
theorem endsProgram_follows (joint : Joint tail w) {op : BinaryOp} {s s' : ParseState × Log α}
    {t : ParseState} {ends : Bool} (parallel : Parallel tail s.1 t)
    (last : op = .sequence → s.2.words.getLast? = some (.operator ";"))
    (ran : Parser.endsProgram (noted α) op s = .ok ends s') (alive : ¬ Doomed tail s') :
    ∃ t', Parser.endsProgram (plain α) op t = .ok ends t' ∧ Parallel tail s'.1 t' := by
  unfold Parser.endsProgram at ran ⊢
  split at ran
  next separator =>
    rw [if_pos separator]
    obtain ⟨token, middle, peeked, done⟩ := Run.bind_eq_ok ran
    obtain ⟨r, read, rfl, rfl⟩ := TokenSource.direct_logged_peek_ok.mp peeked
    cases done
    obtain ⟨r', read', looked, same⟩ := parallel.seen joint read
    have kind : r'.token.kind = r.token.kind := by
      refine same.resolve_right ?_
      rintro ⟨finished, more, _⟩
      exact alive (.inr ⟨more, (AtEnd.of_ahead read finished).look _, last separator⟩)
    refine ⟨_, ?_, looked⟩
    rw [Run.bind_ok (TokenSource.direct_peek_ok.mpr ⟨r', read', rfl, rfl⟩)]
    unfold Parser.isEnd
    rw [kind]
    rfl
  next other =>
    rw [if_neg other]
    cases ran
    exact ⟨t, rfl, parallel⟩

/-- Only a binary operator looks whether the text ends behind it. -/
theorem applyInfix_carries (joint : Joint tail w)
    (held : ∀ q, 10 ≤ q → Carries tail Anywhere (E q) (e q))
    (inside : ∀ q, Carries tail (Inside α) (E q) (e q))
    (listed : ∀ closing, Carries tail Anywhere (L closing) (l closing))
    (location location' : Location) {power : Power} {rule : InfixRule}
    (opened : ∀ q ∈ rule.openPower? power, 10 ≤ q)
    (closes : ∀ closing ∈ rule.closing?, closing ≠ ";")
    (other : ∀ op rightAssociative, rule ≠ .binary op rightAssociative) (left : Expr α) :
    Carries tail Anywhere (Parser.applyInfix (noted α) L E location power left rule)
      (Parser.applyInfix (plain α) l e location' power left rule) := by
  cases rule with
  | binary op rightAssociative => exact absurd rfl (other op rightAssociative)
  | postfixed op => exact .pure _
  | apply head => exact (held power (opened power rfl)).bind fun _ => .pure _
  | composite closing bracket =>
      dsimp only [Parser.applyInfix]
      split
      · refine (skipIf_carries joint (closes closing rfl)).bind fun empty => ?_
        split
        · exact .pure _
        · exact (listed closing).bind fun _ => .pure _
      · exact .throw _
  | branch =>
      refine enclosed_carries joint inside "else" fun condition => ?_
      exact (held power (opened power rfl)).bind fun _ => .pure _

theorem applyInfix_follows (joint : Joint tail w)
    (held : ∀ q, 10 ≤ q → Carries tail Anywhere (E q) (e q))
    (inside : ∀ q, Carries tail (Inside α) (E q) (e q))
    (listed : ∀ closing, Carries tail Anywhere (L closing) (l closing))
    (location location' : Location) {power : Power} {rule : InfixRule}
    (opened : ∀ q ∈ rule.openPower? power, 10 ≤ q)
    (closes : ∀ closing ∈ rule.closing?, closing ≠ ";") {left value : Expr α}
    {s s' : ParseState × Log α} {t : ParseState} (parallel : Parallel tail s.1 t)
    (last : rule.isSeparator → s.2.words.getLast? = some (.operator ";"))
    (ran : Parser.applyInfix (noted α) L E location power left rule s = .ok value s')
    (alive : ¬ Doomed tail s') :
    ∃ t', Parser.applyInfix (plain α) l e location' power left rule t = .ok value t' ∧
      Parallel tail s'.1 t' := by
  by_cases binary : ∃ op rightAssociative, rule = .binary op rightAssociative
  · obtain ⟨op, rightAssociative, rfl⟩ := binary
    obtain ⟨ends, middle, looked, rest⟩ := Run.bind_eq_ok ran
    have operand : Carries tail Anywhere
        (if ends then Pure.pure left else do
          return .binary op left (← E (Parser.rightPower power rightAssociative)))
        (if ends then Pure.pure left else do
          return .binary op left (← e (Parser.rightPower power rightAssociative))) := by
      split
      · exact .pure left
      · exact (held _ (opened _ rfl)).bind fun _ => .pure _
    have alive' : ¬ Doomed tail middle := fun doomed => alive (operand.persists doomed rest)
    obtain ⟨t', looked', parallel'⟩ := endsProgram_follows joint parallel
      (fun same => last (by rw [same]; rfl)) looked alive'
    obtain ⟨t'', followed, parallel''⟩ := operand.carries parallel' rest alive trivial
    exact ⟨t'', (Run.bind_ok looked').trans followed, parallel''⟩
  · have other : ∀ op rightAssociative, rule ≠ .binary op rightAssociative :=
      fun op rightAssociative same => binary ⟨op, rightAssociative, same⟩
    exact (applyInfix_carries joint held inside listed location location' opened closes other
      left).carries parallel ran alive trivial

theorem infixForm_follows (joint : Joint tail w)
    (held : ∀ q, 10 ≤ q → Carries tail Anywhere (E q) (e q))
    (inside : ∀ q, Carries tail (Inside α) (E q) (e q))
    (listed : ∀ closing, Carries tail Anywhere (L closing) (l closing)) {left value : Expr α}
    {token token' : Token α} (same : token'.kind = token.kind) {s s' : ParseState × Log α}
    {t : ParseState} (parallel : Parallel tail s.1 t)
    (last : s.2.words.getLast? = some token.kind)
    (ran : Parser.infixForm (noted α) L E token left s = .ok value s') (alive : ¬ Doomed tail s') :
    ∃ t', Parser.infixForm (plain α) l e token' left t = .ok value t' ∧
      Parallel tail s'.1 t' := by
  obtain ⟨name, operator, rule, kind, found, holds, ran⟩ := Parser.infixForm_ok ran
  obtain ⟨_, opened, closes, separates, _⟩ := parallel.grounded.steady found
  obtain ⟨t', followed, parallel'⟩ := applyInfix_follows joint held inside listed
    token.location token'.location (opened rule holds) (closes rule holds) parallel
    (fun separator => by rw [last, kind, separates rule holds separator]) ran alive
  refine ⟨t', ?_, parallel'⟩
  have known : ((plain α).view t).operators.find? name = some operator := by
    change t.operators.find? name = some operator
    rw [← parallel.operators]
    exact found
  rw [Parser.infixForm_known (same.trans kind) known holds]
  exact followed

/-- No operator ahead would extend an expression at a power. -/
def Settled (α : Type) [Scalar α] [Numeral α] (q : Power) (s : ParseState) : Prop :=
  ∃ r : Lexer.Reading α, s.ahead Lexer.standard .operator = .ok r ∧ r.interner = s.interner ∧
    s.operators.powerOf r.token.kind ≤ q

section Expressions

variable {n : Nat} {q : Power} {left result : Expr α} {s s' : ParseState × Log α}

theorem noted_leftPower_ok {found : Power} (ran : Parser.leftPower (noted α) s = .ok found s') :
    ∃ r : Lexer.Reading α, s.1.ahead Lexer.standard .operator = .ok r ∧
      found = s.1.operators.powerOf r.token.kind ∧
        s' = ({ s.1 with interner := r.interner }, s.2) := by
  obtain ⟨token, middle, peeked, rest⟩ := Run.bind_eq_ok ran
  obtain ⟨r, read, rfl, rfl⟩ := TokenSource.direct_logged_peek_ok.mp peeked
  refine ⟨r, read, ?_⟩
  cases kind : r.token.kind with
  | operator name => rw [kind] at rest; cases rest; exact ⟨rfl, rfl⟩
  | literal value => rw [kind] at rest; cases rest; exact ⟨rfl, rfl⟩
  | endOfInput => rw [kind] at rest; cases rest; exact ⟨rfl, rfl⟩

theorem extend_ok (ran : Parser.extend (noted α) n q left s = .ok result s') :
    ∃ r : Lexer.Reading α, s.1.ahead Lexer.standard .operator = .ok r ∧
      ((s.1.operators.powerOf r.token.kind ≤ q ∧ result = left ∧
          s' = ({ s.1 with interner := r.interner }, s.2)) ∨
        ∃ m log next between, n = m + 1 ∧ q < s.1.operators.powerOf r.token.kind ∧
          Log.words log = s.2.words ++ [r.token.kind] ∧
          Parser.infixForm (noted α) (Parser.arguments (noted α) (Parser.expression (noted α) m) · m)
            (Parser.expression (noted α) m) r.token left
            (s.1.consume r, log) = .ok next between ∧
          Parser.extend (noted α) m q next between = .ok result s') := by
  cases n with
  | zero =>
      obtain ⟨found, middle, looked, rest⟩ := Run.bind_eq_ok ran
      obtain ⟨r, read, rfl, rfl⟩ := noted_leftPower_ok looked
      refine ⟨r, read, .inl ?_⟩
      split at rest
      · obtain ⟨token, after, _, failed⟩ := Run.bind_eq_ok rest
        exact absurd failed Parser.unexpected_ne_ok
      next loose =>
        cases rest
        exact ⟨Nat.le_of_not_lt loose, rfl, rfl⟩
  | succ m =>
      obtain ⟨found, middle, looked, rest⟩ := Run.bind_eq_ok ran
      obtain ⟨r, read, rfl, rfl⟩ := noted_leftPower_ok looked
      refine ⟨r, read, ?_⟩
      split at rest
      next tight =>
        obtain ⟨token, after, consumed, rest⟩ := Run.bind_eq_ok rest
        obtain ⟨r₂, again, rfl, rfl⟩ := TokenSource.direct_logged_next_ok.mp consumed
        cases (ParseState.ahead_again read).symm.trans again
        obtain ⟨next, between, formed, extended⟩ := Run.bind_eq_ok rest
        refine .inr ⟨m, _, next, between, rfl, tight, ?_, formed, extended⟩
        rw [Log.words_append, Event.word?_of_ne_end (OperatorTable.not_end_of_lt tight)]
        rfl
      next loose =>
        cases rest
        exact .inl ⟨Nat.le_of_not_lt loose, rfl, rfl⟩

theorem extend_settled (ran : Parser.extend (noted α) n q left s = .ok result s') :
    Settled α q s'.1 := by
  induction n generalizing left s with
  | zero =>
      obtain ⟨r, read, ⟨loose, _, rfl⟩ | ⟨_, _, _, _, absurd, _⟩⟩ := extend_ok ran
      · exact ⟨r, ParseState.ahead_again read, rfl, loose⟩
      · cases absurd
  | succ n ih =>
      obtain ⟨r, read, ⟨loose, _, rfl⟩ | ⟨m, _, _, _, same, _, _, _, extended⟩⟩ := extend_ok ran
      · exact ⟨r, ParseState.ahead_again read, rfl, loose⟩
      · cases same
        exact ih extended

theorem expression_ok (ran : Parser.expression (noted α) n q s = .ok result s') :
    ∃ m r log left between, n = m + 1 ∧ s.1.ahead Lexer.standard .operand = .ok r ∧
      r.token.kind ≠ .endOfInput ∧
        Parser.prefixForm (noted α) (Parser.expression (noted α) m) r.token (s.1.consume r, log) =
          .ok left between ∧
        Parser.extend (noted α) m q left between = .ok result s' := by
  cases n with
  | zero =>
      obtain ⟨token, middle, _, failed⟩ := Run.bind_eq_ok ran
      exact absurd failed Parser.unexpected_ne_ok
  | succ m =>
      obtain ⟨token, middle, first, rest⟩ := Run.bind_eq_ok ran
      obtain ⟨left, between, formed, extended⟩ := Run.bind_eq_ok rest
      obtain ⟨r, read, rfl, rfl⟩ := TokenSource.direct_logged_next_ok.mp first
      refine ⟨m, r, _, left, between, rfl, read, ?_, formed, extended⟩
      intro ends
      rw [Parser.prefixForm_end ends] at formed
      exact absurd formed Parser.unexpected_ne_ok

theorem expression_settled (ran : Parser.expression (noted α) n q s = .ok result s') :
    Settled α q s'.1 := by
  obtain ⟨m, r, log, left, between, _, _, _, _, extended⟩ := expression_ok ran
  exact extend_settled extended

/-- What is settled in the first text is settled in the longer one, if a separator does not
extend it. -/
theorem Settled.extend (joint : Joint tail w) {s t : ParseState} (settled : Settled α q s)
    (parallel : Parallel tail s t) (holds : AtEnd α s → w ≤ q) (value : Expr α) :
    ∃ t', Direct.extend Lexer.standard q value t = .ok value t' ∧ Parallel tail s t' := by
  obtain ⟨r, read, known, tight⟩ := settled
  obtain ⟨r', read', looked, same⟩ := parallel.seen joint read
  have loose : t.operators.powerOf r'.token.kind ≤ q := by
    rw [← parallel.operators]
    rcases same with kind | ⟨ends, more, separator⟩
    · rw [kind]
      exact tight
    · rw [separator, OperatorTable.powerOf, parallel.grounded.separator]
      cases joint with
      | nothing => exact absurd rfl more
      | separator more => exact holds (AtEnd.of_ahead read ends)
  rw [known] at looked
  exact ⟨_, Direct.extend_of_loose read' loose value, looked⟩

end Expressions

/-- An expression of the first text begins one of the longer text, which extends it where the first
one ends. -/
def ExpressionFollows (α : Type) [Scalar α] [Numeral α] (tail : List Char) (n : Nat) : Prop :=
  ∀ ⦃p : Power⦄ ⦃s s' : ParseState × Log α⦄ ⦃t : ParseState⦄ ⦃result : Expr α⦄,
    Parallel tail s.1 t → Parser.expression (noted α) n p s = .ok result s' → ¬ Doomed tail s' →
      ∃ t', Direct.expression Lexer.standard p t = Direct.extend Lexer.standard p result t' ∧
        Parallel tail s'.1 t'

theorem ExpressionFollows.carries {n : Nat} (h : ExpressionFollows α tail n) (joint : Joint tail w)
    {kind : ParseState → Prop} {q : Power} (holds : ∀ s, AtEnd α s → kind s → w ≤ q) :
    Carries tail kind (Parser.expression (noted α) n q) (Direct.expression Lexer.standard q) := by
  constructor
  · intro s s' result doomed ran
    exact (((doomed_persists tail).expression_and_extend n).1 q).keeps doomed ran
  · intro s s' t result parallel ran alive place
    obtain ⟨t', goes, parallel'⟩ := h parallel ran alive
    obtain ⟨t'', stops, parallel''⟩ :=
      (expression_settled ran).extend joint parallel' (fun ends => holds s'.1 ends place) result
    exact ⟨t'', goes.trans stops, parallel''⟩

section Following

variable {n : Nat} (h : ExpressionFollows α tail n) (joint : Joint tail w)

include h joint

/-- What is held at least as tight as by a separator ends in both texts at the same place. -/
theorem ExpressionFollows.held (q : Power) (high : 10 ≤ q) : Carries tail Anywhere
    (Parser.expression (noted α) n q) (Direct.expression Lexer.standard q) := by
  refine h.carries joint fun s _ _ => Nat.le_trans ?_ high
  cases joint with
  | nothing => exact Nat.zero_le 10
  | separator more => exact Nat.le_refl 10

theorem ExpressionFollows.inside (q : Power) : Carries tail (Inside α)
    (Parser.expression (noted α) n q) (Direct.expression Lexer.standard q) :=
  h.carries joint fun _ ends before => absurd ends before

/-- The first operand of an expression is read in both texts alike. -/
theorem ExpressionFollows.begins {p : Power} {s s' : ParseState × Log α} {t : ParseState}
    {result : Expr α} (parallel : Parallel tail s.1 t)
    (ran : Parser.expression (noted α) (n + 1) p s = .ok result s') (alive : ¬ Doomed tail s') :
    ∃ left between t', Parser.extend (noted α) n p left between = .ok result s' ∧
      Parallel tail between.1 t' ∧
        ∀ q, Direct.expression Lexer.standard q t = Direct.extend Lexer.standard q left t' := by
  obtain ⟨m, r, log, left, between, steps, read, more, formed, extended⟩ := expression_ok ran
  cases steps
  have alive' : ¬ Doomed tail between := fun doomed =>
    alive ((((doomed_persists tail).expression_and_extend n).2 p left).keeps doomed extended)
  obtain ⟨r', read', same, _, parallel'⟩ := parallel.ahead joint read more
  obtain ⟨t', formed', parallel''⟩ :=
    prefixForm_follows joint (h.held joint) (h.inside joint) same parallel' formed alive'
  refine ⟨left, between, t', extended, parallel'', fun q => ?_⟩
  rw [Direct.expression_eq,
    Run.bind_ok (TokenSource.direct_next_ok.mpr ⟨r', read', rfl, rfl⟩), Run.bind_ok formed']

/-- So is what an operator makes of the operand before it. -/
theorem ExpressionFollows.goes_on {p : Power} {left next result : Expr α}
    {s between s' : ParseState × Log α} {t : ParseState} {r : Lexer.Reading α} {log : Log α}
    (parallel : Parallel tail s.1 t) (read : s.1.ahead Lexer.standard .operator = .ok r)
    (tight : p < s.1.operators.powerOf r.token.kind)
    (words : log.words = s.2.words ++ [r.token.kind])
    (formed : Parser.infixForm (noted α)
        (Parser.arguments (noted α) (Parser.expression (noted α) n) · n)
      (Parser.expression (noted α) n) r.token left
      (s.1.consume r, log) = .ok next between)
    (extended : Parser.extend (noted α) n p next between = .ok result s')
    (alive : ¬ Doomed tail s') :
    ∃ t', Parallel tail between.1 t' ∧ ∀ q, q < s.1.operators.powerOf r.token.kind →
      Direct.extend Lexer.standard q left t = Direct.extend Lexer.standard q next t' := by
  have alive' : ¬ Doomed tail between := fun doomed =>
    alive ((((doomed_persists tail).expression_and_extend n).2 p next).keeps doomed extended)
  obtain ⟨r', read', kind, _, parallel'⟩ :=
    parallel.ahead joint read (OperatorTable.not_end_of_lt tight)
  have last : log.words.getLast? = some r.token.kind := by
    rw [words, List.getLast?_append]
    rfl
  obtain ⟨t', formed', parallel''⟩ := infixForm_follows joint (h.held joint) (h.inside joint)
    (fun closing => arguments_carries joint (h.inside joint) closing n) kind
    (s := (s.1.consume r, log)) parallel' last formed alive'
  refine ⟨t', parallel'', fun q lower => ?_⟩
  rw [parallel.operators, ← kind] at lower
  rw [Direct.extend_of_tight read' lower]
  exact Run.bind_ok formed'

end Following

theorem expression_and_extend_follow (joint : Joint tail w) (n : Nat) :
    ExpressionFollows α tail n ∧
      ∀ {p : Power} {left result : Expr α} {s s' : ParseState × Log α} {t : ParseState},
        Parallel tail s.1 t → Parser.extend (noted α) n p left s = .ok result s' →
          ¬ Doomed tail s' → ∃ t', Direct.extend Lexer.standard p left t =
            Direct.extend Lexer.standard p result t' ∧ Parallel tail s'.1 t' := by
  -- by induction on the steps; that the states stay parallel carries both halves
  induction n with
  | zero =>
      constructor
      · intro p s s' t result parallel ran alive
        obtain ⟨token, middle, _, failed⟩ := Run.bind_eq_ok ran
        exact absurd failed Parser.unexpected_ne_ok
      · intro p left result s s' t parallel ran alive
        obtain ⟨r, read, ⟨loose, rfl, rfl⟩ | ⟨_, _, _, _, absurd, _⟩⟩ := extend_ok ran
        · obtain ⟨r', read', looked, _⟩ := parallel.seen joint read
          exact ⟨_, (Direct.extend_look read' result).symm, looked⟩
        · cases absurd
  | succ n ih =>
      obtain ⟨follows, further⟩ := ih
      constructor
      · intro p s s' t result parallel ran alive
        obtain ⟨left, between, t', extended, parallel', begins⟩ :=
          follows.begins joint parallel ran alive
        obtain ⟨t'', extended', final⟩ := further parallel' extended alive
        exact ⟨t'', (begins p).trans extended', final⟩
      · intro p left result s s' t parallel ran alive
        obtain ⟨r, read, ⟨loose, rfl, rfl⟩ |
          ⟨m, log, next, between, same, tight, words, formed, extended⟩⟩ := extend_ok ran
        · obtain ⟨r', read', looked, _⟩ := parallel.seen joint read
          exact ⟨_, (Direct.extend_look read' result).symm, looked⟩
        · cases same
          obtain ⟨t', parallel', goes⟩ :=
            follows.goes_on joint parallel read tight words formed extended alive
          obtain ⟨t'', extended', final⟩ := further parallel' extended alive
          exact ⟨t'', (goes p tight).trans extended', final⟩

end IntervalCalc
