import IntervalCalc.Proofs.Parsing.Bracketing
import IntervalCalc.Proofs.Parsing.History
import IntervalCalc.Proofs.Parsing.Steps
import IntervalCalc.Scalar.Float

/-!
Operator precedence. Over a text of literals and operators the parser climbs by powers, so it
gives the tree of the one bracketing of the text that is well grouped.
-/

namespace IntervalCalc

variable {α : Type} [Scalar α] [Numeral α]

/-- The words that a text spells from a place on, each read in the position in which the parser
asks for it, up to the end of the text. -/
inductive Spelled (lexer : Lexer) : Position → ParseState → List (Word α) → Prop
  | literal {state : ParseState} {r : Lexer.Reading α} {value : Expr α} {words : List (Word α)} :
      state.ahead lexer .operand = .ok r → r.token.kind = .literal value →
      Spelled lexer .operator (state.consume r) words →
      Spelled lexer .operand state (.literal value :: words)
  | prefixed {state : ParseState} {r : Lexer.Reading α} {name : String} {form : PrefixForm}
      {power : Power} {words : List (Word α)} :
      state.ahead lexer .operand = .ok r → r.token.kind = .operator name →
      (state.operators.find? name).bind (·.prefixRule) = some (form.rule power) →
      Spelled lexer .operand (state.consume r) words →
      Spelled lexer .operand state (.prefixed form power :: words)
  | infixed {state : ParseState} {r : Lexer.Reading α} {name : String} {operator : Operator}
      {form : InfixForm} {words : List (Word α)} :
      state.ahead lexer .operator = .ok r → r.token.kind = .operator name →
      state.operators.find? name = some operator → operator.infixRule = some form.rule →
      1 ≤ operator.leftPower → Spelled lexer .operand (state.consume r) words →
      Spelled lexer .operator state (.infixed form operator.leftPower :: words)
  | postfixed {state : ParseState} {r : Lexer.Reading α} {name : String} {operator : Operator}
      {op : UnaryOp} {words : List (Word α)} :
      state.ahead lexer .operator = .ok r → r.token.kind = .operator name →
      state.operators.find? name = some operator → operator.infixRule = some (.postfixed op) →
      1 ≤ operator.leftPower → Spelled lexer .operator (state.consume r) words →
      Spelled lexer .operator state (.postfixed op operator.leftPower :: words)
  | atEnd {state : ParseState} {r : Lexer.Reading α} :
      state.ahead lexer .operator = .ok r → r.token.kind = .endOfInput →
      Spelled lexer .operator state []

namespace Spelled

variable {lexer : Lexer} {position : Position} {state : ParseState} {words : List (Word α)}

theorem look (h : Spelled lexer position state words) : ∃ r : Lexer.Reading α,
    state.ahead lexer position = .ok r ∧
      Spelled lexer position { state with interner := r.interner } words := by
  cases h with
  | @literal _ r _ _ ahead kind later =>
      exact ⟨r, ahead, .literal (ParseState.ahead_again ahead) kind later⟩
  | @prefixed _ r _ _ _ _ ahead kind rule later =>
      exact ⟨r, ahead, .prefixed (ParseState.ahead_again ahead) kind rule later⟩
  | @infixed _ r _ _ _ _ ahead kind found rule positive later =>
      exact ⟨r, ahead, .infixed (ParseState.ahead_again ahead) kind found rule positive later⟩
  | @postfixed _ r _ _ _ _ ahead kind found rule positive later =>
      exact ⟨r, ahead, .postfixed (ParseState.ahead_again ahead) kind found rule positive later⟩
  | @atEnd _ r ahead ends => exact ⟨r, ahead, .atEnd (ParseState.ahead_again ahead) ends⟩

/-- The power that the parser sees is the one of the next word. -/
theorem powerOf (h : Spelled lexer .operator state words) {r : Lexer.Reading α}
    (read : state.ahead lexer .operator = .ok r) :
    state.operators.powerOf r.token.kind = (firstPower? words).getD 0 := by
  cases h with
  | infixed ahead kind found rule positive _ =>
      cases read.symm.trans ahead
      rw [kind, OperatorTable.powerOf, found]
      rfl
  | postfixed ahead kind found rule positive _ =>
      cases read.symm.trans ahead
      rw [kind, OperatorTable.powerOf, found]
      rfl
  | atEnd ahead ends =>
      cases read.symm.trans ahead
      rw [ends]
      rfl

theorem not_end (h : Spelled lexer .operand state words) {r : Lexer.Reading α}
    (ahead : state.ahead lexer .operand = .ok r) : r.token.kind ≠ .endOfInput := by
  intro ends
  cases h with
  | literal ahead' kind _ =>
      cases ahead.symm.trans ahead'
      rw [ends] at kind
      cases kind
  | prefixed ahead' kind _ _ =>
      cases ahead.symm.trans ahead'
      rw [ends] at kind
      cases kind

theorem positive (h : Spelled lexer position state words) :
    ∀ word ∈ words, ∀ q ∈ word.leftPower?, 0 < q := by
  induction h with
  | literal _ _ _ ih =>
      intro word member q power
      rcases List.mem_cons.mp member with rfl | member
      · cases power
      · exact ih word member q power
  | prefixed _ _ _ _ ih =>
      intro word member q power
      rcases List.mem_cons.mp member with rfl | member
      · cases power
      · exact ih word member q power
  | infixed _ _ _ _ positive _ ih =>
      intro word member q power
      rcases List.mem_cons.mp member with rfl | member
      · cases power
        exact positive
      · exact ih word member q power
  | postfixed _ _ _ _ positive _ ih =>
      intro word member q power
      rcases List.mem_cons.mp member with rfl | member
      · cases power
        exact positive
      · exact ih word member q power
  | atEnd _ _ => intro word member; cases member

end Spelled

theorem prefixForm_prefixed {σ : Type} {S : TokenSource α σ} {e : Power → ParseM σ (Expr α)}
    {token : Token α} {name : String} {form : PrefixForm} {power : Power} {state state' : σ}
    {operand : Expr α} (kind : token.kind = .operator name)
    (known : ((S.view state).operators.find? name).bind (·.prefixRule) = some (form.rule power))
    (inner : e power state = .ok operand state') :
    Parser.prefixForm S e token state = .ok (form.expr operand) state' := by
  rw [Parser.prefixForm_known kind known]
  cases form with
  | unary op => exact Run.bind_ok inner
  | apply head => exact Run.bind_ok inner

/-- Behind an operator the parser reads the right operand, after a look at it if the operator is
a separator. -/
theorem infixForm_infixed {lexer : Lexer} {state : ParseState} {token : Token α} {name : String}
    {operator : Operator} {form : InfixForm} {words : List (Word α)}
    {l : String → ParseM ParseState (List (Expr α))} {e : Power → ParseM ParseState (Expr α)}
    (kind : token.kind = .operator name)
    (known : state.operators.find? name = some operator) (rule : operator.infixRule = some form.rule)
    (spelled : Spelled lexer .operand state words) :
    ∃ start, Spelled lexer .operand start words ∧ ∀ left right state',
      e (form.rightPower operator.leftPower) start = .ok right state' →
        Parser.infixForm (.direct lexer) l e token left state =
          .ok (form.expr left right) state' := by
  cases form with
  | apply head =>
      refine ⟨state, spelled, fun left right state' inner => ?_⟩
      rw [Parser.infixForm_known kind known rule]
      exact Run.bind_ok inner
  | binary op rightAssociative =>
      have power : Parser.rightPower operator.leftPower rightAssociative =
          (InfixForm.binary op rightAssociative).rightPower operator.leftPower := by
        cases rightAssociative <;> rfl
      obtain ⟨r, ahead, later⟩ := spelled.look
      have goes : ∃ start, Spelled lexer .operand start words ∧
          Parser.endsProgram (.direct (α := α) lexer) op state = .ok false start := by
        unfold Parser.endsProgram
        split
        · refine ⟨_, later, ?_⟩
          have peeked := TokenSource.direct_peek_ok.mpr ⟨r, ahead, rfl, rfl⟩
          have more : Parser.isEnd r.token = false :=
            Bool.eq_false_iff.mpr fun ends => spelled.not_end ahead (Parser.isEnd_iff.mp ends)
          rw [Run.bind_ok peeked, more]
          rfl
        · exact ⟨state, spelled, rfl⟩
      obtain ⟨start, here, goes⟩ := goes
      refine ⟨start, here, fun left right state' inner => ?_⟩
      rw [Parser.infixForm_known kind known rule]
      change (Parser.endsProgram (.direct lexer) op >>= _) state = _
      rw [Run.bind_ok goes, power]
      exact Run.bind_ok inner

section Climbing

variable {lexer : Lexer} {p : Power} {state : ParseState} {words : List (Word α)}

theorem extend_stop (left : Expr α) (spelled : Spelled lexer .operator state words)
    (waits : ∀ q ∈ firstPower? words, q ≤ p) : ∃ state',
      Direct.extend lexer p left state = .ok left state' ∧ Spelled lexer .operator state' words := by
  obtain ⟨r, ahead, later⟩ := spelled.look
  refine ⟨_, ?_, later⟩
  have loose : state.operators.powerOf r.token.kind ≤ p := by
    rw [spelled.powerOf ahead]
    cases first : firstPower? words with
    | none => exact Nat.zero_le p
    | some q => exact waits q first
  exact Direct.extend_of_loose ahead loose left

theorem extend_more {left next : Expr α} {r : Lexer.Reading α} {state' : ParseState}
    (spelled : Spelled lexer .operator state words) (ahead : state.ahead lexer .operator = .ok r)
    (tighter : p < (firstPower? words).getD 0)
    (formed : Parser.infixForm (.direct lexer) (Direct.arguments lexer) (Direct.expression lexer)
      r.token left (state.consume r) = .ok next state') :
    Direct.extend lexer p left state = Direct.extend lexer p next state' := by
  rw [← spelled.powerOf ahead] at tighter
  rw [Direct.extend_of_tight ahead tighter]
  exact Run.bind_ok formed

/-- A parse makes of the words ahead what climbing makes of them, and leaves fewer words than some
number. -/
def Parses (lexer : Lexer) (p : Power) (seed : Option (Bracketing α)) (words : List (Word α))
    (parse : ParseM ParseState (Expr α)) (state : ParseState) (bound : Nat) : Prop :=
  ∃ tree rest state', Climbs p seed words tree rest ∧ parse state = .ok tree.expr state' ∧
    Spelled lexer .operator state' rest ∧ rest.length < bound

namespace Parses

variable {r : Lexer.Reading α} {name : String} {power : Power} {bound bound' : Nat}

theorem weaken {seed : Option (Bracketing α)} {parse : ParseM ParseState (Expr α)}
    (h : Parses lexer p seed words parse state bound) (le : bound ≤ bound') :
    Parses lexer p seed words parse state bound' := by
  obtain ⟨tree, rest, state', climbed, parsed, spelled, shorter⟩ := h
  exact ⟨tree, rest, state', climbed, parsed, spelled, Nat.lt_of_lt_of_le shorter le⟩

theorem literal {value : Expr α} (ahead : state.ahead lexer .operand = .ok r)
    (kind : r.token.kind = .literal value)
    (later : Parses lexer p (some (.literal value)) words (Direct.extend lexer p value)
      (state.consume r) bound) :
    Parses lexer p none (.literal value :: words) (Direct.expression lexer p) state bound := by
  obtain ⟨tree, rest, state', climbed, extended, spelled, shorter⟩ := later
  refine ⟨tree, rest, state', .literal climbed, ?_, spelled, shorter⟩
  rw [Direct.expression_eq, Run.bind_ok (TokenSource.direct_next_ok.mpr ⟨r, ahead, rfl, rfl⟩),
    Run.bind_ok (Parser.prefixForm_literal kind)]
  exact extended

theorem prefixed {form : PrefixForm} (ahead : state.ahead lexer .operand = .ok r)
    (kind : r.token.kind = .operator name)
    (rule : (state.operators.find? name).bind (·.prefixRule) = some (form.rule power))
    (inner : Parses lexer power none words (Direct.expression lexer power) (state.consume r) bound')
    (later : ∀ (operand : Bracketing α) rest state', Spelled lexer .operator state' rest →
      rest.length < bound' → Parses lexer p (some (.prefixed form power operand)) rest
        (Direct.extend lexer p (form.expr operand.expr)) state' bound) :
    Parses lexer p none (.prefixed form power :: words) (Direct.expression lexer p) state
      bound := by
  obtain ⟨operand, middle, between, first, parsed, spelled, shorter⟩ := inner
  obtain ⟨tree, rest, state', climbed, extended, spelled', shorter'⟩ :=
    later operand middle between spelled shorter
  refine ⟨tree, rest, state', .prefixed first climbed, ?_, spelled', shorter'⟩
  rw [Direct.expression_eq, Run.bind_ok (TokenSource.direct_next_ok.mpr ⟨r, ahead, rfl, rfl⟩),
    Run.bind_ok (prefixForm_prefixed kind rule parsed)]
  exact extended

theorem stop {left : Bracketing α} (spelled : Spelled lexer .operator state words)
    (waits : ∀ q ∈ firstPower? words, q ≤ p) :
    Parses lexer p (some left) words (Direct.extend lexer p left.expr) state
      (words.length + 1) := by
  obtain ⟨state', stops, later⟩ := extend_stop left.expr spelled waits
  exact ⟨left, words, state', .stop waits, stops, later, Nat.lt_succ_self _⟩

section Operators

variable {operator : Operator} {left : Bracketing α}
variable (ahead : state.ahead lexer .operator = .ok r) (kind : r.token.kind = .operator name)
variable (known : state.operators.find? name = some operator) (tighter : p < operator.leftPower)

include ahead kind known tighter

theorem infixed {form : InfixForm} (rule : operator.infixRule = some form.rule)
    (spelled : Spelled lexer .operand (state.consume r) words)
    (inner : ∀ start, Spelled lexer .operand start words →
      Parses lexer (form.rightPower operator.leftPower) none words
        (Direct.expression lexer (form.rightPower operator.leftPower)) start bound')
    (later : ∀ (right : Bracketing α) rest state', Spelled lexer .operator state' rest →
      rest.length < bound' →
      Parses lexer p (some (.infixed form operator.leftPower left right)) rest
        (Direct.extend lexer p (form.expr left.expr right.expr)) state' bound) :
    Parses lexer p (some left) (.infixed form operator.leftPower :: words)
      (Direct.extend lexer p left.expr) state bound := by
  have known' : (state.consume r).operators.find? name = some operator := known
  obtain ⟨start, here, formed⟩ :=
    infixForm_infixed (e := Direct.expression lexer) (l := Direct.arguments lexer) kind known' rule
      spelled
  obtain ⟨right, middle, between, first, parsed, spelled', shorter⟩ := inner start here
  obtain ⟨tree, rest, state', climbed, extended, spelled'', shorter'⟩ :=
    later right middle between spelled' shorter
  refine ⟨tree, rest, state', .infixed tighter first climbed, ?_, spelled'', shorter'⟩
  rw [extend_more (.infixed ahead kind known rule (Nat.zero_lt_of_lt tighter) spelled) ahead tighter
    (formed left.expr right.expr between parsed)]
  exact extended

theorem postfixed {op : UnaryOp} (rule : operator.infixRule = some (.postfixed op))
    (spelled : Spelled lexer .operator (state.consume r) words)
    (later : Parses lexer p (some (.postfixed op operator.leftPower left)) words
      (Direct.extend lexer p (.unary op left.expr)) (state.consume r) bound) :
    Parses lexer p (some left) (.postfixed op operator.leftPower :: words)
      (Direct.extend lexer p left.expr) state bound := by
  obtain ⟨tree, rest, state', climbed, extended, spelled', shorter⟩ := later
  refine ⟨tree, rest, state', .postfixed tighter climbed, ?_, spelled', shorter⟩
  rw [extend_more (.postfixed ahead kind known rule (Nat.zero_lt_of_lt tighter) spelled) ahead
    tighter (Parser.infixForm_known kind known rule left.expr)]
  exact extended

end Operators

end Parses

/-- What the parser makes of an operand, or behind one, is what climbing makes of the words. -/
theorem climbs (n : Nat) : ∀ {words : List (Word α)} {state : ParseState} (p : Power),
    words.length ≤ n →
    (Spelled lexer .operand state words →
      Parses lexer p none words (Direct.expression lexer p) state words.length) ∧
    (Spelled lexer .operator state words → ∀ left : Bracketing α,
      Parses lexer p (some left) words (Direct.extend lexer p left.expr) state
        (words.length + 1)) := by
  induction n with
  | zero =>
      intro words state p none
      obtain rfl := List.eq_nil_of_length_eq_zero (Nat.le_zero.mp none)
      constructor
      · intro spelled
        cases spelled
      · intro spelled left
        exact .stop spelled fun _ absurd => by cases absurd
  | succ n ih =>
      intro words state p bound
      constructor
      · intro spelled
        cases spelled with
        | literal ahead kind later =>
            rw [List.length_cons] at bound ⊢
            exact .literal ahead kind ((ih p (by omega)).2 later _)
        | prefixed ahead kind rule later =>
            rw [List.length_cons] at bound ⊢
            refine .prefixed ahead kind rule ((ih _ (by omega)).1 later) ?_
            intro operand rest state' spelled shorter
            exact ((ih p (by omega)).2 spelled (.prefixed _ _ operand)).weaken (by omega)
      · intro spelled left
        by_cases waits : ∀ q ∈ firstPower? words, q ≤ p
        · exact .stop spelled waits
        · cases spelled with
          | infixed ahead kind known rule positive later =>
              have tighter := Nat.lt_of_not_le fun low =>
                waits fun q first => by cases first; exact low
              rw [List.length_cons] at bound ⊢
              refine .infixed ahead kind known tighter rule later
                (fun start here => (ih _ (by omega)).1 here) ?_
              intro right rest state' spelled shorter
              exact ((ih p (by omega)).2 spelled (.infixed _ _ left right)).weaken (by omega)
          | postfixed ahead kind known rule positive later =>
              have tighter := Nat.lt_of_not_le fun low =>
                waits fun q first => by cases first; exact low
              rw [List.length_cons] at bound ⊢
              refine .postfixed ahead kind known tighter rule later ?_
              exact ((ih p (by omega)).2 later (.postfixed _ _ left)).weaken (by omega)
          | atEnd ahead ends => exact absurd (fun _ absurd => by cases absurd) waits

end Climbing

/-- For every grammar and every text of operands and operators, the parse succeeds, and its tree is
that of the one well grouped bracketing of the whole text. -/
theorem Grammar.parse_bracketing (grammar : Grammar) (interner : Interner) (source : String)
    {words : List (Word α)}
    (spelled : Spelled grammar.lexer .operand (grammar.start interner source) words) :
    ∃ tree : Bracketing α, tree.words = words ∧ tree.Grouped ∧
      (∀ other : Bracketing α, other.words = words → other.Grouped → other = tree) ∧
      (grammar.parse interner source).outcome = .ok tree.expr := by
  obtain ⟨tree, rest, state', climbed, parsed, spelled', _⟩ :=
    (climbs words.length 0 (Nat.le_refl _)).1 spelled
  obtain ⟨ready, waits, order⟩ := climbed.grouped fun _ absurd => (by cases absurd)
  -- no operator has power zero, so that nothing is left over
  cases spelled' with
  | infixed _ _ _ _ positive _ => exact absurd (waits _ rfl) (Nat.not_le_of_lt positive)
  | postfixed _ _ _ _ positive _ => exact absurd (waits _ rfl) (Nat.not_le_of_lt positive)
  | @atEnd _ r ahead ends =>
      rw [List.append_nil] at order
      refine ⟨tree, order.symm, ready.grouped, ?_, ?_⟩
      · intro other same grouped
        have positive : ∀ q ∈ other.leftPowers, 0 < q := by
          intro q member
          obtain ⟨word, inside, power⟩ := Bracketing.mem_leftPowers member
          rw [same] at inside
          exact spelled.positive word inside q power
        have found := Climbs.of_grouped grouped positive
        rw [same] at found
        exact (found.unique climbed).1
      · have read := TokenSource.direct_next_ok.mpr ⟨r, ahead, rfl, rfl⟩
        have whole : grammar.parseDirect interner source = .ok tree.expr (state'.consume r) :=
          parseDirect_ok.mpr ⟨r.token, state', parsed, read, ends⟩
        rw [parse_eq_direct, whole]
        rfl

/-- The words of `-a+b*c!`. -/
def sampleWords : List (Word Float) :=
  [.prefixed (.unary .neg) 100, .literal (.symbol ⟨0, "a"⟩), .infixed (.binary .add false) 50,
    .literal (.symbol ⟨1, "b"⟩), .infixed (.binary .mul false) 60, .literal (.symbol ⟨2, "c"⟩),
    .postfixed .factorial 80]

theorem Grammar.parse_bracketing_sample :
    Spelled Grammar.standard.lexer .operand (Grammar.standard.start .empty "-a+b*c!") sampleWords ∧
      ∃ tree : Bracketing Float, tree.words = sampleWords ∧ tree.Grouped ∧
        (∀ other : Bracketing Float, other.words = sampleWords → other.Grouped → other = tree) ∧
        (Grammar.standard.parse .empty "-a+b*c!").outcome = .ok tree.expr := by
  have spelled : Spelled Grammar.standard.lexer .operand
      (Grammar.standard.start .empty "-a+b*c!") sampleWords := by
    refine .prefixed rfl rfl rfl (.literal rfl rfl ?_)
    refine @Spelled.infixed Float _ _ _ _ _ "+"
      (Operator.withPrefix (.binary 50 .add) (.unary .plus 100)) _ _ rfl rfl rfl rfl (by decide) ?_
    refine .literal rfl rfl ?_
    refine @Spelled.infixed Float _ _ _ _ _ "*" (.binary 60 .mul) _ _ rfl rfl rfl rfl (by decide) ?_
    refine .literal rfl rfl ?_
    refine @Spelled.postfixed Float _ _ _ _ _ "!" (.infixed 80 (.postfixed .factorial)) _ _
      rfl rfl rfl rfl (by decide) ?_
    exact .atEnd rfl rfl
  exact ⟨spelled, Grammar.parse_bracketing Grammar.standard .empty "-a+b*c!" spelled⟩

/-- An operator of empty name stands between any two words, but it also hides blanks. -/
example :
    let subtracting : Grammar := ⟨.standard, ⟨[("", .binary 50 .sub)]⟩⟩
    let closing := Grammar.standard.register "" .closer
    (subtracting.parse (α := Float) .empty "1-2").outcome.isOk ∧
      ¬ (closing.parse (α := Float) .empty "1 + 2").outcome.isOk := by
  decide +kernel

end IntervalCalc
