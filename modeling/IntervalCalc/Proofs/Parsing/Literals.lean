import IntervalCalc.Proofs.Evaluation.Values
import IntervalCalc.Proofs.Parsing.History

/-!
The intervals of a parsed program. They come from literals only, which put two bounds in order, so
a property of the intervals that the operations make holds of them as well.
-/

namespace IntervalCalc

variable {α β γ σ : Type} [Scalar α] [Numeral α] {P : Interval α → Prop}

/-- The intervals of a token have a property. -/
def TokenKind.Literals (P : Interval α → Prop) : TokenKind α → Prop
  | .literal value => value.Literals P
  | _ => True

section Lexing

variable {position : Position} {vocabulary : Vocabulary} {interner interner' : Interner}
variable {cursor after : Cursor} {kind : TokenKind α} (closed : Interval.Closed P)

include closed

theorem Recognizer.scan_literals {recognizer : Recognizer}
    (found : recognizer.scan position vocabulary interner cursor =
      .ok (.token kind after interner')) :
    kind.Literals P := by
  cases recognizer with
  | interval =>
      rcases scanInterval_ok found with ⟨declined, _⟩ | ⟨_, low, high, _, same⟩
      · cases declined
      · cases same
        exact .interval (closed.between low high)
  | name =>
      have scanned := Except.ok.inj found
      unfold scanName at scanned
      split at scanned
      · cases scanned
      · dsimp only at scanned
        split at scanned
        · cases scanned
          trivial
        · cases scanned
          exact .symbol _
  | number =>
      obtain ⟨_, ⟨value, rfl⟩, _⟩ := scanNumber_token (Except.ok.inj found)
      exact .number value
  | operator =>
      have scanned := Except.ok.inj found
      unfold scanOperator at scanned
      split at scanned <;> cases scanned
      trivial
  | whitespace =>
      have scanned := Except.ok.inj found
      unfold scanBlank at scanned
      split at scanned <;> cases scanned

theorem Lexer.firstScan_literals {rules : List LexerRule}
    (found : firstScan position vocabulary interner cursor rules =
      .ok (.token kind after interner')) :
    kind.Literals P := by
  induction rules with
  | nil => cases found
  | cons rule rules ih =>
      rw [firstScan] at found
      split at found
      · exact ih found
      · exact Recognizer.scan_literals closed found

theorem Lexer.Lexes.literals {lexer : Lexer} {r : Reading α}
    (h : Lexes lexer position vocabulary interner cursor r) : r.token.kind.Literals P := by
  induction h with
  | atEnd => trivial
  | token _ found => exact firstScan_literals closed found
  | blank _ _ ih => exact ih

end Lexing

/-- Whatever a step gives is of a kind. -/
def ParseM.Gives (Q : β → Prop) (step : ParseM σ β) : Prop :=
  ∀ s value s', step s = .ok value s' → Q value

namespace ParseM.Gives

variable {Q : β → Prop} {Q' : γ → Prop}

theorem pure {value : β} (h : Q value) : Gives Q (Pure.pure value : ParseM σ β) := by
  intro s other s' found
  cases found
  exact h

theorem throw (error : SyntaxError) : Gives Q (MonadExcept.throw error : ParseM σ β) := by
  intro s other s' found
  cases found

theorem anything (step : ParseM σ β) : Gives (fun _ => True) step :=
  fun _ _ _ _ => trivial

theorem bind {step : ParseM σ β} {next : β → ParseM σ γ} (h : Gives Q step)
    (h' : ∀ value, Q value → Gives Q' (next value)) : Gives Q' (step >>= next) := by
  intro s result s' found
  obtain ⟨value, middle, first, second⟩ := Run.bind_eq_ok found
  exact h' value (h s value middle first) middle result s' second

/-- A step whose value is of no matter. -/
theorem after {step : ParseM σ β} {next : β → ParseM σ γ} (h : ∀ value, Gives Q' (next value)) :
    Gives Q' (step >>= next) :=
  (anything step).bind fun value _ => h value

end ParseM.Gives

namespace Parser

open ParseM (Gives)

/-- A source all of whose tokens have such intervals. -/
def TokensLiteral (P : Interval α → Prop) (S : TokenSource α σ) : Prop :=
  ∀ position, Gives (fun token => token.kind.Literals P) (S.next position)

omit [Scalar α] in
theorem unexpected_gives {Q : β → Prop} (token : Token α) :
    Gives Q (unexpected token : ParseM σ β) :=
  fun _ _ _ found => absurd found unexpected_ne_ok

variable {S : TokenSource α σ} {e : Power → ParseM σ (Expr α)}
variable (inner : ∀ power, Gives (Expr.Literals P) (e power))

include inner

omit [Scalar α] in
theorem arguments_gives (closing : String) (steps : Nat) :
    Gives (fun list => ∀ argument ∈ list, argument.Literals P)
      (arguments S e closing steps) := by
  induction steps with
  | zero => exact .after fun token => unexpected_gives token
  | succ steps ih =>
      refine (inner 0).bind fun first hf => .after fun more => ?_
      split
      · exact ih.bind fun rest hr => .pure (List.forall_mem_cons.mpr ⟨hf, hr⟩)
      · exact .after fun _ => .pure (List.forall_mem_singleton.mpr hf)

omit [Scalar α] in
theorem definition_gives (location : Location) :
    Gives (Expr.Literals P) (definition S e location) := by
  refine .after fun signature => ?_
  split
  · refine .after fun names => .after fun _ => ?_
    exact (inner 0).bind fun body hb => .after fun _ => .pure (.function hb)
  · exact .throw _

theorem applyPrefix_gives (location : Location) (rule : PrefixRule) :
    Gives (Expr.Literals P) (applyPrefix S e location rule) := by
  cases rule with
  | unary op power => exact (inner power).bind fun operand h => .pure (.unary h)
  | apply head power =>
      exact (inner power).bind fun operand h => .pure (.composite (List.forall_mem_singleton.mpr h))
  | group closing => exact (inner 0).bind fun value h => .after fun _ => .pure h
  | branch =>
      refine (inner 0).bind fun condition h => .after fun _ => ?_
      refine (inner 0).bind fun consequence h' => .after fun _ => ?_
      exact (inner 0).bind fun alternative h'' => .after fun _ => .pure (.branch h h' h'')
  | function => exact definition_gives inner location
  | declare fixity =>
      refine .after fun token => .after fun name => .after fun power => .after fun _ => ?_
      exact .pure (.number 0)

theorem prefixForm_gives {token : Token α} (h : token.kind.Literals P) :
    Gives (Expr.Literals P) (prefixForm S e token) := by
  unfold prefixForm
  split
  next value literal =>
    rw [literal] at h
    exact .pure h
  · exact unexpected_gives token
  · refine .after fun operator => ?_
    split
    · exact unexpected_gives token
    · exact applyPrefix_gives inner token.location _

omit [Scalar α] in
theorem applyInfix_gives {list : String → ParseM σ (List (Expr α))}
    (listed : ∀ closing, Gives (fun values => ∀ value ∈ values, value.Literals P) (list closing))
    (location : Location) (power : Power) {left : Expr α} (hl : left.Literals P)
    (rule : InfixRule) :
    Gives (Expr.Literals P) (applyInfix S list e location power left rule) := by
  cases rule with
  | binary op rightAssociative =>
      refine .after fun ends => ?_
      split
      · exact .pure hl
      · exact (inner _).bind fun right hr => .pure (.binary hl hr)
  | postfixed op => exact .pure (.unary hl)
  | apply head =>
      exact (inner power).bind fun right hr => .pure (.composite (by simp [hl, hr]))
  | composite closing bracket =>
      dsimp only [applyInfix]
      split
      · refine .after fun empty => ?_
        split
        · exact .pure (.composite (by simp))
        · exact (listed closing).bind fun values h => .pure (.composite h)
      · exact .throw _
  | branch =>
      refine (inner 0).bind fun condition h => .after fun _ => ?_
      exact (inner power).bind fun alternative h' => .pure (.branch h hl h')

omit [Scalar α] in
theorem infixForm_gives (steps : Nat) (token : Token α) {left : Expr α} (hl : left.Literals P) :
    Gives (Expr.Literals P) (infixForm S (arguments S e · steps) e token left) := by
  unfold infixForm
  split
  · refine .after fun found => ?_
    split
    · split
      · exact applyInfix_gives inner (fun closing => arguments_gives inner closing steps) _ _ hl _
      · exact unexpected_gives token
    · exact unexpected_gives token
  · exact unexpected_gives token

omit inner

theorem expression_and_extend_gives (tokens : TokensLiteral P S) (steps : Nat) :
    (∀ power, Gives (Expr.Literals P) (expression S steps power)) ∧
      ∀ power left, left.Literals P → Gives (Expr.Literals P) (extend S steps power left) := by
  induction steps with
  | zero =>
      constructor
      · intro power
        exact .after fun token => unexpected_gives token
      · intro power left hl
        refine .after fun found => ?_
        split
        · exact .after fun token => unexpected_gives token
        · exact .pure hl
  | succ steps ih =>
      obtain ⟨inner, later⟩ := ih
      constructor
      · intro power
        refine (tokens .operand).bind fun token ht => ?_
        exact (prefixForm_gives inner ht).bind fun left hl => later power left hl
      · intro power left hl
        refine .after fun found => ?_
        split
        · refine .after fun token => ?_
          exact (infixForm_gives inner steps token hl).bind fun left hl => later power left hl
        · exact .pure hl

end Parser

/-- A parsed program has only intervals that the library makes. -/
theorem Grammar.parse_literals (closed : Interval.Closed P) {grammar : Grammar}
    {interner : Interner} {source : String} {tree : Expr α}
    (parsed : (grammar.parse interner source).outcome = .ok tree) : tree.Literals P := by
  have tokens : Parser.TokensLiteral P (TokenSource.direct (α := α) grammar.lexer) := by
    intro position state token after found
    obtain ⟨r, read, rfl, _⟩ := TokenSource.direct_next_ok.mp found
    exact (Lexer.lexes_of_next read).literals closed
  rw [parse_eq_direct] at parsed
  cases ran : grammar.parseDirect (α := α) interner source with
  | error error state => rw [ran] at parsed; cases parsed
  | ok result state =>
      rw [ran] at parsed
      cases parsed
      obtain ⟨_, middle, found, _⟩ := Parser.program_ok ran
      exact (Parser.expression_and_extend_gives tokens _).1 0 _ _ _ found

end IntervalCalc
