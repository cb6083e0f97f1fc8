import IntervalCalc.Proofs.Parsing.Grammatical
import IntervalCalc.Proofs.Parsing.Transfer
import IntervalCalc.Scalar.Float

/-!
What the parser accepts. The words that a part of the parser consumes derive the expression that it
gives, and nothing else is consumed. Only a separator at the end of the text belongs to no
expression, and behind it nothing more can be asked for.
-/

namespace IntervalCalc

open IntervalCalc.Parser

variable {α β γ : Type}

theorem Log.words_concat (log events : Log α) :
    Log.words (log ++ events) = log.words ++ events.words :=
  List.filterMap_append

theorem Log.declaresNothing_append {log events : Log α} :
    Log.DeclaresNothing (log ++ events) ↔ log.DeclaresNothing ∧ events.DeclaresNothing :=
  List.forall_mem_append

/-- What a step is known to lead to, from a state, with a value and the words consumed. -/
abbrev Upshot (α β : Type) := ParseState → β → List (TokenKind α) → ParseState → Prop

/-- What a step leads to, if it begins with the standard operators and declares nothing. -/
def Consumes (step : ParseM (ParseState × Log α) β) (post : Upshot α β) : Prop :=
  ∀ ⦃s s' : ParseState × Log α⦄ ⦃value : β⦄, step s = .ok value s' →
    ∃ events : Log α, s'.2 = s.2 ++ events ∧
      (s.1.operators = .standard → events.DeclaresNothing →
        s'.1.operators = .standard ∧ post s.1 value events.words s'.1)

namespace Consumes

variable {step : ParseM (ParseState × Log α) β} {next : β → ParseM (ParseState × Log α) γ}
variable {post post' : Upshot α β}

theorem imp (h : Consumes step post)
    (more : ∀ s value words s', post s value words s' → post' s value words s') :
    Consumes step post' := by
  intro s s' value ran
  obtain ⟨events, grown, holds⟩ := h ran
  exact ⟨events, grown, fun standard nothing => (holds standard nothing).imp id (more _ _ _ _)⟩

/-- The words of two steps are those of the first and then those of the second. -/
theorem bind {later : β → Upshot α γ} (h : Consumes step post)
    (h' : ∀ value, Consumes (next value) (later value)) :
    Consumes (step >>= next) fun s result words s' => ∃ value front middle rest,
      words = front ++ rest ∧ post s value front middle ∧ later value middle result rest s' := by
  intro s s' result ran
  obtain ⟨value, middle, first, second⟩ := Run.bind_eq_ok ran
  obtain ⟨events, grown, holds⟩ := h first
  obtain ⟨events', grown', holds'⟩ := h' value second
  refine ⟨events ++ events', by rw [grown', grown, List.append_assoc], fun standard nothing => ?_⟩
  rw [Log.declaresNothing_append] at nothing
  obtain ⟨standard, before⟩ := holds standard nothing.1
  obtain ⟨standard, after⟩ := holds' standard nothing.2
  exact ⟨standard, value, _, _, _, Log.words_concat events events', before, after⟩

/-- What follows may be known never to come to an end. -/
theorem bind_never (h : Consumes step post)
    (never : ∀ value, Consumes (next value) fun _ _ _ _ => False) :
    Consumes (step >>= next) fun _ _ _ _ => False := by
  refine (h.bind never).imp ?_
  rintro s _ _ s' ⟨_, _, _, _, _, _, absurd⟩
  exact absurd

theorem pure (value : β) : Consumes (α := α) (Pure.pure value) fun s result words s' =>
    result = value ∧ words = [] ∧ s' = s := by
  intro s s' result ran
  cases ran
  exact ⟨[], (List.append_nil _).symm, fun standard _ => ⟨standard, rfl, rfl, rfl⟩⟩

theorem fails (failing : ∀ s value s', step s ≠ .ok value s') : Consumes step post :=
  fun _ _ _ ran => absurd ran (failing _ _ _)

theorem throw (error : SyntaxError) : Consumes (MonadExcept.throw error) post :=
  fails fun _ _ _ absurd => by cases absurd

end Consumes

variable [Scalar α] [Numeral α]

/-- A token other than the end of the text is consumed as a word. -/
theorem next_consumes (position : Position) : Consumes ((noted α).next position)
    fun s token words s' =>
      (token.kind = .endOfInput ∧ words = [] ∧ AtEnd α s') ∨
        (token.kind ≠ .endOfInput ∧ words = [token.kind] ∧ ¬ AtEnd α s) := by
  intro s s' token ran
  obtain ⟨r, read, rfl, rfl⟩ := TokenSource.direct_logged_next_ok.mp ran
  refine ⟨_, rfl, fun standard _ => ⟨standard, ?_⟩⟩
  by_cases ends : r.token.kind = .endOfInput
  · exact .inl ⟨ends, List.filterMap_cons_none (Event.word?_of_end ends), AtEnd.consume read ends⟩
  · refine .inr ⟨ends, List.filterMap_cons_some (Event.word?_of_ne_end ends), ?_⟩
    intro finished
    obtain ⟨r', read', absurd, _⟩ := finished.ahead position
    cases read.symm.trans read'
    exact ends absurd

/-- Looking at a token consumes nothing. -/
theorem peek_consumes (position : Position) : Consumes ((noted α).peek position)
    fun s token words s' =>
      words = [] ∧ (AtEnd α s → token.kind = .endOfInput ∧ AtEnd α s') ∧
        (token.kind = .endOfInput → AtEnd α s') := by
  intro s s' token ran
  obtain ⟨r, read, rfl, rfl⟩ := TokenSource.direct_logged_peek_ok.mp ran
  refine ⟨[], (List.append_nil _).symm, fun standard _ => ⟨standard, rfl, fun finished => ?_, ?_⟩⟩
  · obtain ⟨r', read', ends, _⟩ := finished.ahead position
    cases read.symm.trans read'
    exact ⟨ends, finished.look _⟩
  · exact fun ends => (AtEnd.of_ahead read ends).look _

omit [Scalar α] in
theorem unexpected_consumes (token : Token α) {post : Upshot α β} :
    Consumes (unexpected token) post :=
  .fails fun _ _ _ => unexpected_ne_ok

theorem expect_consumes (name : String) : Consumes (expect (noted α) name)
    fun s _ words _ => words = [.operator name] ∧ ¬ AtEnd α s := by
  have matched (token : Token α) : Consumes
      (if isOperator token name then Pure.pure () else
        throw (⟨.expected name token.kind.text, token.location⟩ : SyntaxError) :
          ParseM (ParseState × Log α) Unit)
      fun _ _ words _ => token.kind = .operator name ∧ words = [] := by
    split
    next same => exact (Consumes.pure ()).imp fun _ _ _ _ done => ⟨isOperator_iff.mp same, done.2.1⟩
    · exact .throw _
  refine ((next_consumes .operator).bind matched).imp ?_
  rintro s _ _ s' ⟨token, _, middle, _, rfl, ⟨ends, _, _⟩ | ⟨_, rfl, more⟩, kind, rfl⟩
  · rw [ends] at kind
    cases kind
  · exact ⟨by rw [kind]; rfl, more⟩

theorem skipIf_consumes (name : String) : Consumes (skipIf (noted α) name)
    fun s found words s' =>
      (found = true ∧ words = [.operator name] ∧ ¬ AtEnd α s) ∨
        (found = false ∧ words = [] ∧ (AtEnd α s → AtEnd α s')) := by
  intro s s' found ran
  obtain ⟨token, middle, peeked, rest⟩ := Run.bind_eq_ok ran
  obtain ⟨r, read, rfl, rfl⟩ := TokenSource.direct_logged_peek_ok.mp peeked
  split at rest
  next matched =>
    obtain ⟨_, after, consumed, done⟩ := Run.bind_eq_ok rest
    obtain ⟨r', again, rfl, rfl⟩ := TokenSource.direct_logged_next_ok.mp consumed
    cases (ParseState.ahead_again read).symm.trans again
    cases done
    have kind := isOperator_iff.mp matched
    have more : r.token.kind ≠ .endOfInput := by
      rw [kind]
      simp
    refine ⟨_, rfl, fun standard _ => ⟨standard, .inl ⟨rfl, ?_, fun ends => ?_⟩⟩⟩
    · rw [← kind]
      exact List.filterMap_cons_some (Event.word?_of_ne_end more)
    · exact absurd (skipIf_at_end ends ran).1 (by decide)
  · cases rest
    refine ⟨[], (List.append_nil _).symm, fun standard _ => ⟨standard, .inr ⟨rfl, rfl, ?_⟩⟩⟩
    exact fun ends => ends.look _

theorem leftPower_consumes : Consumes (leftPower (noted α))
    fun s power words s' => words = [] ∧ (AtEnd α s → power = 0 ∧ AtEnd α s') := by
  intro s s' power ran
  obtain ⟨r, read, rfl, rfl⟩ := noted_leftPower_ok ran
  refine ⟨[], (List.append_nil _).symm, fun standard _ => ⟨standard, rfl, fun finished => ?_⟩⟩
  obtain ⟨r', read', ends, _⟩ := finished.ahead .operator
  cases read.symm.trans read'
  rw [ends]
  exact ⟨rfl, finished.look _⟩

theorem endsProgram_consumes (op : BinaryOp) : Consumes (endsProgram (noted α) op)
    fun _ ends words s' => words = [] ∧ (ends = true → op = .sequence ∧ AtEnd α s') := by
  unfold endsProgram
  split
  next separator =>
    refine ((peek_consumes .operand).bind fun token => .pure (isEnd token)).imp ?_
    rintro s _ _ _ ⟨token, _, _, _, rfl, ⟨rfl, _, finished⟩, rfl, rfl, rfl⟩
    exact ⟨rfl, fun ends => ⟨separator, finished (isEnd_iff.mp ends)⟩⟩
  · refine (Consumes.pure false).imp ?_
    rintro s _ _ _ ⟨rfl, rfl, rfl⟩
    exact ⟨rfl, fun absurd => by cases absurd⟩

/-- Words that end with an expression, but for a separator at the end of the text. -/
def EndsWith (value : Expr α) (words : List (TokenKind α)) (s : ParseState) : Prop :=
  Derives words value ∨
    ∃ front, words = front ++ [.operator ";"] ∧ Derives front value ∧ AtEnd α s

namespace EndsWith

variable {value value' : Expr α} {words : List (TokenKind α)} {s : ParseState}

theorem inside (h : EndsWith value words s) (more : ¬ AtEnd α s) : Derives words value :=
  h.resolve_right fun ⟨_, _, _, ends⟩ => more ends

/-- What an operand at the end is a part of. -/
theorem after (front : List (TokenKind α)) (h : EndsWith value words s)
    (derives : ∀ words, Derives words value → Derives (front ++ words) value') :
    EndsWith value' (front ++ words) s := by
  obtain whole | ⟨middle, rfl, whole, ends⟩ := h
  · exact .inl (derives _ whole)
  · exact .inr ⟨front ++ middle, (List.append_assoc _ _ _).symm, derives _ whole, ends⟩

end EndsWith

/-- Arguments with what separates them, and the bracket behind them. -/
def ArgumentList (closing : String) (values : List (Expr α)) (words : List (TokenKind α)) : Prop :=
  ∃ pairs, pairs ≠ [] ∧ (∀ pair ∈ pairs, Derives pair.1 pair.2) ∧ values = pairs.map Prod.snd ∧
    words = separated pairs ++ [.operator closing]

namespace ArgumentList

variable {closing : String} {value : Expr α} {values : List (Expr α)}
variable {front words : List (TokenKind α)}

omit [Scalar α] [Numeral α] in
theorem last (h : Derives words value) :
    ArgumentList closing [value] (words ++ [.operator closing]) :=
  ⟨[(words, value)], List.cons_ne_nil _ _, by simpa using h, rfl, rfl⟩

omit [Scalar α] [Numeral α] in
theorem cons (h : Derives front value) (rest : ArgumentList closing values words) :
    ArgumentList closing (value :: values) (front ++ .operator "," :: words) := by
  obtain ⟨pairs, some, derives, rfl, rfl⟩ := rest
  obtain ⟨pair, pairs, rfl⟩ := List.exists_cons_of_ne_nil some
  refine ⟨(front, value) :: pair :: pairs, List.cons_ne_nil _ _, ?_, rfl, ?_⟩
  · exact List.forall_mem_cons.mpr ⟨h, derives⟩
  · simp [separated]

end ArgumentList

variable {E : Power → ParseM (ParseState × Log α) (Expr α)}
variable (inner : ∀ power, Consumes (E power) fun _ => EndsWith)

include inner

theorem enclosed_consumes (closing : String) {f : Expr α → ParseM (ParseState × Log α) β}
    {later : Expr α → Upshot α β} (h : ∀ value, Consumes (f value) (later value)) :
    Consumes
      (do
        let value ← E 0
        expect (noted α) closing
        f value)
      fun _ result words s' => ∃ value front middle rest, Derives front value ∧
        words = front ++ .operator closing :: rest ∧ later value middle result rest s' := by
  refine ((inner 0).bind fun value => (expect_consumes closing).bind fun _ => h value).imp ?_
  rintro s result _ s' ⟨value, front, middle, _, rfl, whole, _, _, after, rest, rfl, ⟨rfl, more⟩, last⟩
  exact ⟨value, front, after, rest, whole.inside more, rfl, last⟩

theorem arguments_consumes (closing : String) (steps : Nat) :
    Consumes (arguments (noted α) E closing steps)
      fun _ values words _ => ArgumentList closing values words := by
  induction steps with
  | zero =>
      refine .fails fun s values s' ran => ?_
      obtain ⟨token, middle, _, failed⟩ := Run.bind_eq_ok ran
      exact unexpected_ne_ok failed
  | succ steps ih =>
      have continued (first : Expr α) (more : Bool) : Consumes
          (if more then do
            let rest ← arguments (noted α) E closing steps
            return first :: rest
          else do
            expect (noted α) closing
            return [first] : ParseM (ParseState × Log α) (List (Expr α)))
          fun s values words _ =>
            (more = true ∧ ∃ rest, values = first :: rest ∧ ArgumentList closing rest words) ∨
              (more = false ∧ values = [first] ∧ words = [.operator closing] ∧ ¬ AtEnd α s) := by
        cases more with
        | true =>
            refine (ih.bind fun rest => .pure (first :: rest)).imp ?_
            rintro s _ _ _ ⟨rest, words, _, _, rfl, list, rfl, rfl, rfl⟩
            rw [List.append_nil]
            exact .inl ⟨rfl, rest, rfl, list⟩
        | false =>
            refine ((expect_consumes closing).bind fun _ => .pure [first]).imp ?_
            rintro s _ _ _ ⟨_, _, _, _, rfl, ⟨rfl, inside⟩, rfl, rfl, rfl⟩
            exact .inr ⟨rfl, rfl, rfl, inside⟩
      refine ((inner 0).bind fun first =>
        (skipIf_consumes ",").bind fun more => continued first more).imp ?_
      rintro s values _ s' ⟨first, front, middle, _, rfl, whole, more, _, after, rest, rfl, skipped,
        ⟨rfl, others, rfl, list⟩ | ⟨rfl, rfl, rfl, inside⟩⟩
      · obtain ⟨_, rfl, inside⟩ | ⟨absurd, _⟩ := skipped
        · exact .cons (whole.inside inside) list
        · cases absurd
      · obtain ⟨absurd, _⟩ | ⟨_, rfl, ends⟩ := skipped
        · cases absurd
        · exact .last (whole.inside fun finished => inside (ends finished))

omit inner [Scalar α] in
theorem parameters_consumes (location : Location) (list : List (Expr α)) :
    Consumes (parameters location list) fun s names (words : List (TokenKind α)) s' =>
      list = names.map .symbol ∧ words = [] ∧ s' = s := by
  induction list with
  | nil =>
      refine (Consumes.pure []).imp ?_
      rintro s _ _ _ ⟨rfl, rfl, rfl⟩
      exact ⟨rfl, rfl, rfl⟩
  | cons first rest ih =>
      cases first with
      | symbol symbol =>
          refine (ih.bind fun names => .pure (symbol :: names)).imp ?_
          rintro s _ _ _ ⟨names, _, _, _, rfl, ⟨rfl, rfl, rfl⟩, rfl, rfl, rfl⟩
          exact ⟨rfl, rfl, rfl⟩
      | _ => exact .throw _

theorem definition_consumes (location : Location) : Consumes (definition (noted α) E location)
    fun _ value words _ => Derives (.operator "fun" :: words) value := by
  refine ((inner 0).bind fun signature => (?_ : Consumes _ fun s value words _ => ¬ AtEnd α s ∧
    ∀ front, Derives front signature → Derives (.operator "fun" :: (front ++ words)) value)).imp ?_
  · split
    next head list =>
      have body (names : List Symbol) := (expect_consumes (α := α) "is").bind fun _ =>
        enclosed_consumes inner "end" fun body => .pure (Expr.function head names body)
      refine ((parameters_consumes location list).bind body).imp ?_
      rintro s _ _ _ ⟨names, _, _, _, rfl, ⟨rfl, rfl, rfl⟩, _, _, _, _, rfl, ⟨rfl, inside⟩,
        value, derived, _, _, derives, rfl, rfl, rfl, rfl⟩
      exact ⟨inside, fun front signature => .function signature derives⟩
    · exact .throw _
  · rintro s value _ s' ⟨signature, front, middle, words, rfl, whole, inside, derives⟩
    exact derives front (whole.inside inside)

/-- What a declaration declares is noted, so nothing is left to say of one. -/
theorem declaration_consumes (fixity : Fixity) :
    Consumes (declaration (noted α) E fixity) fun _ _ _ _ => False := by
  have named (token : Token α) : Consumes
      (declaredName token : ParseM (ParseState × Log α) String) fun _ _ _ _ => True := by
    unfold declaredName
    split
    · exact (Consumes.pure _).imp fun _ _ _ _ _ => trivial
    · split
      · exact (Consumes.pure _).imp fun _ _ _ _ _ => trivial
      · exact .throw _
    · exact .throw _
  have powered : Consumes (declaredPower (noted α) E) fun _ _ _ _ => True := by
    refine ((peek_consumes .operand).bind fun first => (inner 1000).bind fun operand =>
      (?_ : Consumes _ fun _ _ _ _ => True)).imp fun _ _ _ _ _ => trivial
    split
    · split
      · exact (Consumes.pure _).imp fun _ _ _ _ _ => trivial
      · exact .throw _
    · exact .throw _
  have declared (name : String) (power : Power) :
      Consumes ((noted α).declare name fixity power) fun _ _ _ _ => False := by
    intro s s' value ran
    cases ran
    refine ⟨[.declared name fixity power], rfl, fun _ nothing => ?_⟩
    cases nothing _ List.mem_cons_self
  have ended (name : String) (power : Power) : Consumes
      (do
        (noted α).declare name fixity power
        return .number 0 : ParseM (ParseState × Log α) (Expr α)) fun _ _ _ _ => False :=
    ((declared name power).bind fun _ => .pure _).imp fun _ _ _ _ ⟨_, _, _, _, _, absurd, _⟩ => absurd
  exact (next_consumes .operand).bind_never fun token => (named token).bind_never fun name =>
    powered.bind_never fun power => ended name power

/-- What a standard rule asks for is behind the name of its operator. -/
theorem applyPrefix_consumes (location : Location) (name : String) (rule : PrefixRule) :
    Consumes (applyPrefix (noted α) E location rule) fun _ value words s' =>
      standardPrefix? name = some rule → EndsWith value (.operator name :: words) s' := by
  cases rule with
  | unary op power =>
      refine ((inner power).bind fun operand => .pure (Expr.unary op operand)).imp ?_
      rintro s _ _ _ ⟨operand, words, _, _, rfl, whole, rfl, rfl, rfl⟩ known
      rw [List.append_nil]
      exact whole.after [.operator name] fun _ derives => .prefixed known derives
  | apply head power =>
      refine ((inner power).bind fun operand => .pure (Expr.composite head [operand] .round)).imp ?_
      rintro s _ _ _ _ known
      exact (standardPrefix?_proper known).elim
  | group closing =>
      refine (enclosed_consumes inner closing fun value => .pure value).imp ?_
      rintro s _ _ _ ⟨value, front, _, _, derives, rfl, rfl, rfl, rfl⟩ known
      obtain ⟨bracket, _, rfl, rfl⟩ := standardPrefix?_proper known
      exact .inl (.group bracket derives)
  | branch =>
      refine (enclosed_consumes inner "then" fun condition =>
        enclosed_consumes inner "else" fun consequence =>
          enclosed_consumes inner "end" fun alternative =>
            .pure (Expr.branch condition consequence alternative)).imp ?_
      rintro s _ _ _ ⟨condition, _, _, _, first, rfl, consequence, _, _, _, second, rfl,
        alternative, _, _, _, third, rfl, rfl, rfl, rfl⟩ known
      obtain rfl : name = "if" := standardPrefix?_proper known
      exact .inl (.branch first second third)
  | function =>
      refine (definition_consumes inner location).imp ?_
      rintro s _ _ _ derives known
      obtain rfl : name = "fun" := standardPrefix?_proper known
      exact .inl derives
  | declare fixity => exact (declaration_consumes inner fixity).imp fun _ _ _ _ => False.elim

theorem prefixForm_consumes (token : Token α) : Consumes (prefixForm (noted α) E token)
    fun _ value words s' =>
      token.kind ≠ .endOfInput ∧ EndsWith value (token.kind :: words) s' := by
  intro s s' value ran
  obtain ⟨kind, rfl⟩ | ⟨name, operator, rule, kind, found, holds, ran⟩ := prefixForm_ok ran
  · refine ⟨[], (List.append_nil _).symm, fun standard _ => ⟨standard, ?_⟩⟩
    rw [kind]
    exact ⟨by simp, .inl (.literal value)⟩
  · obtain ⟨events, grown, whole⟩ := applyPrefix_consumes inner token.location name rule ran
    refine ⟨events, grown, fun standard nothing => ?_⟩
    obtain ⟨after, whole⟩ := whole standard nothing
    have known : standardPrefix? name = some rule := by
      change s.1.operators.find? name = some operator at found
      rw [standard] at found
      exact Option.bind_eq_some_iff.mpr ⟨operator, found, holds⟩
    rw [kind]
    exact ⟨after, by simp, whole known⟩

omit [Scalar α] [Numeral α] inner in
theorem standardInfix?_separator {name : String} {rightAssociative : Bool}
    (known : standardInfix? name = some (.binary .sequence rightAssociative)) : name = ";" := by
  obtain ⟨operator, found, holds⟩ := Option.bind_eq_some_iff.mp known
  obtain ⟨_, _, _, separates, _⟩ := OperatorTable.Grounded.standard.steady found
  exact separates _ holds rfl

/-- What is given behind an operand and the name of an operator. -/
abbrev Extends (name : String) (rule : InfixRule) (left : Expr α) : Upshot α (Expr α) :=
  fun _ value words s' => standardInfix? name = some rule → ∀ front, Derives front left →
    EndsWith value (front ++ .operator name :: words) s'

section Infix

variable {list : String → ParseM (ParseState × Log α) (List (Expr α))}
variable (members : ∀ closing, Consumes (list closing) fun _ values words _ =>
  ArgumentList closing values words)
variable (location : Location) (power : Power) (left : Expr α) (name : String)

/-- A separator at the end of the text is consumed, and adds nothing. -/
theorem binary_consumes (op : BinaryOp) (rightAssociative : Bool) :
    Consumes (applyInfix (noted α) list E location power left (.binary op rightAssociative))
      (Extends name (.binary op rightAssociative) left) := by
  have operand (ends : Bool) : Consumes
      (if ends then Pure.pure left else do
        return .binary op left (← E (rightPower power rightAssociative)) :
          ParseM (ParseState × Log α) (Expr α))
      fun s value words s' => (ends = true ∧ value = left ∧ words = [] ∧ s' = s) ∨
        (ends = false ∧ ∃ right, value = .binary op left right ∧ EndsWith right words s') := by
    cases ends with
    | true => exact (Consumes.pure left).imp fun _ _ _ _ done => .inl ⟨rfl, done⟩
    | false =>
        refine ((inner _).bind fun right => .pure (Expr.binary op left right)).imp ?_
        rintro s _ _ _ ⟨right, words, _, _, rfl, whole, rfl, rfl, rfl⟩
        rw [List.append_nil]
        exact .inr ⟨rfl, right, rfl, whole⟩
  refine ((endsProgram_consumes op).bind operand).imp ?_
  rintro s value _ s' ⟨ends, _, middle, words, rfl, ⟨rfl, finished⟩,
    ⟨rfl, rfl, rfl, rfl⟩ | ⟨rfl, right, rfl, whole⟩⟩ known front derives
  · obtain ⟨rfl, ends⟩ := finished rfl
    rw [standardInfix?_separator known]
    exact .inr ⟨front, rfl, derives, ends⟩
  · have infixed := whole.after (front ++ [.operator name]) fun words right => by
      simpa using Derives.infixed known derives right
    simpa using infixed

include members

omit inner in
theorem composite_consumes (closing : String) (bracket : Bracket) :
    Consumes (applyInfix (noted α) list E location power left (.composite closing bracket))
      (Extends name (.composite closing bracket) left) := by
  dsimp only [applyInfix]
  split
  next head =>
    have listed (empty : Bool) : Consumes
        (if empty then Pure.pure (.composite head [] bracket) else do
          return .composite head (← list closing) bracket :
            ParseM (ParseState × Log α) (Expr α))
        fun _ value words _ =>
          (empty = true ∧ value = .composite head [] bracket ∧ words = []) ∨
            (empty = false ∧ ∃ values, value = .composite head values bracket ∧
              ArgumentList closing values words) := by
      cases empty with
      | true =>
          refine (Consumes.pure _).imp ?_
          rintro s _ _ _ ⟨rfl, rfl, rfl⟩
          exact .inl ⟨rfl, rfl, rfl⟩
      | false =>
          refine ((members closing).bind fun values =>
            .pure (Expr.composite head values bracket)).imp ?_
          rintro s _ _ _ ⟨values, words, _, _, rfl, list, rfl, rfl, rfl⟩
          rw [List.append_nil]
          exact .inr ⟨rfl, values, rfl, list⟩
    refine ((skipIf_consumes closing).bind listed).imp ?_
    rintro s value _ s' ⟨empty, _, middle, words, rfl, skipped, given⟩ known front derives
    obtain ⟨rfl, rfl⟩ := standardInfix?_proper known
    obtain ⟨rfl, rfl, rfl⟩ | ⟨rfl, _, rfl, pairs, _, members, rfl, rfl⟩ := given
    · obtain ⟨_, rfl, _⟩ | ⟨absurd, _⟩ := skipped
      · have none : ∀ pair ∈ ([] : List (List (TokenKind α) × Expr α)), Derives pair.1 pair.2 := by
          simp
        exact .inl (.composite bracket derives none)
      · cases absurd
    · obtain ⟨absurd, _⟩ | ⟨_, rfl, _⟩ := skipped
      · cases absurd
      · exact .inl (.composite bracket derives members)
  · exact .throw _

theorem applyInfix_consumes (rule : InfixRule) :
    Consumes (applyInfix (noted α) list E location power left rule) (Extends name rule left) := by
  cases rule with
  | binary op rightAssociative =>
      exact binary_consumes inner location power left name op rightAssociative
  | postfixed op =>
      refine (Consumes.pure (Expr.unary op left)).imp ?_
      rintro s _ _ _ ⟨rfl, rfl, rfl⟩ known front derives
      exact .inl (.postfixed known derives)
  | apply head =>
      refine ((inner power).bind fun operand =>
        .pure (Expr.composite head [left, operand] .round)).imp ?_
      rintro s _ _ _ _ known
      exact (standardInfix?_proper known).elim
  | composite closing bracket =>
      exact composite_consumes members location power left name closing bracket
  | branch =>
      refine (enclosed_consumes inner "else" fun condition =>
        (inner power).bind fun alternative => .pure (Expr.branch condition left alternative)).imp ?_
      rintro s _ _ _ ⟨condition, middle, _, _, second, rfl, alternative, words, _, _, rfl, whole,
        rfl, rfl, rfl⟩ known front derives
      obtain rfl : name = "if" := standardInfix?_proper known
      have conditional := whole.after (front ++ .operator "if" :: (middle ++ [.operator "else"]))
        fun words alternative => by simpa using Derives.conditional derives second alternative
      simpa using conditional

end Infix

theorem infixForm_consumes (steps : Nat) (token : Token α) (left : Expr α) :
    Consumes (infixForm (noted α) (arguments (noted α) E · steps) E token left) fun _ value words s' =>
      token.kind ≠ .endOfInput ∧ ∀ front, Derives front left →
        EndsWith value (front ++ token.kind :: words) s' := by
  intro s s' value ran
  obtain ⟨name, operator, rule, kind, found, holds, ran⟩ := infixForm_ok ran
  obtain ⟨events, grown, whole⟩ :=
    applyInfix_consumes inner (fun closing => arguments_consumes inner closing steps)
      token.location operator.leftPower left name rule ran
  refine ⟨events, grown, fun standard nothing => ?_⟩
  obtain ⟨after, whole⟩ := whole standard nothing
  have known : standardInfix? name = some rule := by
    change s.1.operators.find? name = some operator at found
    rw [standard] at found
    exact Option.bind_eq_some_iff.mpr ⟨operator, found, holds⟩
  rw [kind]
  exact ⟨after, by simp, whole known⟩

/-- What is given for an operand with what is consumed behind it. At the end of the text it stays as
it is. -/
abbrev Continues (left : Expr α) : Upshot α (Expr α) :=
  fun s value words s' => (∀ front, Derives front left → EndsWith value (front ++ words) s') ∧
    (AtEnd α s → value = left ∧ words = [] ∧ AtEnd α s')

omit inner in
theorem extension_consumes {power : Power} {left : Expr α}
    {more : ParseM (ParseState × Log α) (Expr α)} (h : Consumes more fun s value words s' =>
      ¬ AtEnd α s ∧ ∀ front, Derives front left → EndsWith value (front ++ words) s') :
    Consumes (do if power < (← leftPower (noted α)) then more else return left)
      (Continues left) := by
  have continued (found : Power) : Consumes (if power < found then more else Pure.pure left)
      fun s value words s' => (¬ AtEnd α s ∧
        ∀ front, Derives front left → EndsWith value (front ++ words) s') ∨
          (value = left ∧ words = [] ∧ s' = s) := by
    split
    · exact h.imp fun _ _ _ _ => .inl
    · exact (Consumes.pure left).imp fun _ _ _ _ => .inr
  refine (leftPower_consumes.bind continued).imp ?_
  rintro s value _ s' ⟨found, _, middle, words, rfl, ⟨rfl, ends⟩,
    ⟨more, whole⟩ | ⟨rfl, rfl, rfl⟩⟩
  · exact ⟨whole, fun finished => absurd (ends finished).2 more⟩
  · refine ⟨fun front derives => ?_, fun finished => ⟨rfl, rfl, (ends finished).2⟩⟩
    exact .inl (by simpa using derives)

omit inner in
theorem expression_and_extend_consume (steps : Nat) :
    (∀ power, Consumes (expression (noted α) steps power) fun _ => EndsWith) ∧
      ∀ power left, Consumes (extend (noted α) steps power left) (Continues left) := by
  -- by induction on the steps; that nothing is consumed at the end of the text carries a separator
  -- there from the operand that it follows to the whole expression
  induction steps with
  | zero =>
      constructor
      · intro power
        refine .fails fun s value s' ran => ?_
        obtain ⟨token, middle, _, failed⟩ := Run.bind_eq_ok ran
        exact unexpected_ne_ok failed
      · intro power left
        refine extension_consumes (.fails fun s value s' ran => ?_)
        obtain ⟨token, middle, _, failed⟩ := Run.bind_eq_ok ran
        exact unexpected_ne_ok failed
  | succ steps ih =>
      obtain ⟨inner, later⟩ := ih
      constructor
      · intro power
        refine ((next_consumes .operand).bind fun token =>
          (prefixForm_consumes inner token).bind fun left => later power left).imp ?_
        rintro s value _ s' ⟨token, _, _, _, rfl, read, left, front, middle, rest, rfl,
          ⟨some, whole⟩, extended, ended⟩
        obtain ⟨ends, _⟩ | ⟨_, rfl, _⟩ := read
        · exact absurd ends some
        · obtain derives | ⟨before, same, derives, ends⟩ := whole
          · exact extended _ derives
          · obtain ⟨rfl, rfl, finished⟩ := ended ends
            exact .inr ⟨before, by simpa using same, derives, finished⟩
      · intro power left
        refine extension_consumes (((next_consumes .operator).bind fun token =>
          (infixForm_consumes inner steps token left).bind fun left => later power left).imp ?_)
        rintro s value _ s' ⟨token, _, _, _, rfl, read, next, front, middle, rest, rfl,
          ⟨some, whole⟩, extended, ended⟩
        obtain ⟨ends, _⟩ | ⟨_, rfl, inside⟩ := read
        · exact absurd ends some
        · refine ⟨inside, fun earlier derives => ?_⟩
          obtain derives | ⟨before, same, derives, ends⟩ := whole earlier derives
          · simpa using extended _ derives
          · obtain ⟨rfl, rfl, finished⟩ := ended ends
            exact .inr ⟨before, by simpa using same, derives, finished⟩

omit inner in
theorem program_consumes (steps : Nat) : Consumes (program (noted α) steps)
    fun _ value words _ => ∃ front : List (TokenKind α), Derives front value ∧
      (words = front ∨ words = front ++ [.operator ";"]) := by
  have finished (result : Expr α) (token : Token α) : Consumes
      (if isEnd token then Pure.pure result else unexpected token :
        ParseM (ParseState × Log α) (Expr α))
      fun _ value words _ => value = result ∧ words = [] ∧ token.kind = .endOfInput := by
    split
    next ends =>
      refine (Consumes.pure result).imp ?_
      rintro s _ _ _ ⟨rfl, rfl, rfl⟩
      exact ⟨rfl, rfl, isEnd_iff.mp ends⟩
    · exact unexpected_consumes token
  refine (((expression_and_extend_consume steps).1 0).bind fun result =>
    (next_consumes .operator).bind fun token => finished result token).imp ?_
  rintro s value _ s' ⟨_, words, middle, _, rfl, whole, token, _, after, _, rfl, read, rfl, rfl, ends⟩
  obtain ⟨_, rfl, _⟩ | ⟨more, _⟩ := read
  · rw [List.append_nil, List.append_nil]
    obtain derives | ⟨front, rfl, derives, _⟩ := whole
    · exact ⟨words, derives, .inl rfl⟩
    · exact ⟨front, derives, .inr rfl⟩
  · exact absurd ends more

omit inner

namespace Grammar

/-- Everything that an accepted text without declarations consists of, read token by token, is a
derivation of what it is parsed to, but for one separator that may be at its end. So brackets are
closed in the order in which they are opened, each by its own. -/
theorem parse_derives (interner : Interner) (source : String) {tree : Expr α}
    (accepted : (standard.parse interner source).outcome = .ok tree)
    (nothing : (standard.history α interner source).DeclaresNothing) :
    (∃ cursor, History .standard .standard (.ofList source.toList)
      (standard.history α interner source) .standard cursor ∧ cursor.rest = []) ∧
    (∃ words, Derives words tree ∧ ((standard.history α interner source).words = words ∨
      (standard.history α interner source).words = words ++ [.operator ";"])) ∧
    WellBracketed (standard.history α interner source).words := by
  obtain ⟨after, logged, _, same, history, finished⟩ :=
    parseDirectLogged_ok standard interner source accepted
  obtain ⟨events, grown, whole⟩ := program_consumes (Parser.stepsFor source.toList) logged
  obtain rfl : after.2 = events := grown
  rw [same] at nothing ⊢
  obtain ⟨unchanged, words, derives, spelled⟩ := whole rfl nothing
  rw [unchanged] at history
  refine ⟨⟨after.1.cursor, history, finished⟩, ⟨words, derives, spelled⟩, ?_⟩
  obtain spelled | spelled := spelled
  · rw [spelled]
    exact derives.balanced []
  · rw [spelled]
    exact derives.balanced.append (.operator (by decide)) []

/-- A function that is defined and called, with every kind of bracket and a last separator. -/
theorem parse_derives_function :
    let source := "fun f(x, y) is \x7bx[1]\x7d if x < 0 else (x + y!) end; f(1, 2);"
    (standard.parse (α := Float) .empty source).outcome.isOk = true ∧
      (standard.history Float .empty source).DeclaresNothing ∧
      (standard.history Float .empty source).words.length = 34 ∧
      WellBracketed (standard.history Float .empty source).words := by
  intro source
  have accepted : (standard.parse (α := Float) .empty source).outcome.isOk = true := by
    decide +kernel
  have nothing : (standard.history Float .empty source).DeclaresNothing := by decide +kernel
  obtain ⟨tree, parsed⟩ := exists_of_isOk accepted
  obtain ⟨_, _, bracketed⟩ := parse_derives .empty source parsed nothing
  exact ⟨accepted, nothing, by decide +kernel, bracketed⟩

end Grammar

end IntervalCalc
