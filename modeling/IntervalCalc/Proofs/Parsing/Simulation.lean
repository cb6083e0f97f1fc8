import IntervalCalc.Grammar.Parser
import IntervalCalc.Proofs.Agreement

/-!
Parses over different sources of tokens. Two sources simulate each other if related states give
the same tokens and the same errors and stay related. The parser asks a source for nothing else,
so whole parses agree as well.
-/

namespace IntervalCalc

variable {α β σ τ : Type}

/-- A symbol that is read is spelled like a name. -/
def Token.Named (token : Token α) : Prop :=
  ∀ symbol, token.kind = .literal (.symbol symbol) → isIdentifier symbol.name.toList

/-- Sources that a parser cannot tell apart. Only names are ever declared. -/
structure TokenSource.Simulates (S : TokenSource α σ) (T : TokenSource α τ) (R : σ → τ → Prop) :
    Prop where
  operators {s : σ} {t : τ} : R s t → (S.view s).operators = (T.view t).operators
  interner {s : σ} {t : τ} : R s t → (S.view s).interner = (T.view t).interner
  next (position : Position) : Alike R (S.next position) (T.next position)
  peek (position : Position) : Alike R (S.peek position) (T.peek position)
  named {s s' : σ} {t : τ} {position : Position} {token : Token α} : R s t →
    S.next position s = .ok token s' → token.Named
  declare {name : String} (fixity : Fixity) (power : Power) : isIdentifier name.toList →
    Alike R (S.declare name fixity power) (T.declare name fixity power)

namespace Parser

variable [Numeral α]

omit [Numeral α] in
theorem isEnd_iff {token : Token α} : isEnd token ↔ token.kind = .endOfInput := by
  unfold isEnd
  cases token.kind <;> simp

omit [Numeral α] in
theorem isOperator_iff {token : Token α} {name : String} :
    isOperator token name ↔ token.kind = .operator name := by
  unfold isOperator
  cases token.kind <;> simp

omit [Numeral α] in
theorem isOperator_congr {token token' : Token α} (same : token'.kind = token.kind) (name : String) :
    isOperator token' name = isOperator token name := by
  unfold isOperator
  rw [same]

theorem unexpected_ne_ok {token : Token α} {value : β} {s s' : σ} :
    unexpected token s ≠ .ok value s' := by
  obtain ⟨kind, location⟩ := token
  cases kind <;> exact fun absurd => by cases absurd

theorem program_ok [Scalar α] {S : TokenSource α σ} {steps : Nat} {result : Expr α} {s s' : σ}
    (h : program S steps s = .ok result s') : ∃ token middle,
      expression S steps 0 s = .ok result middle ∧ S.next .operator middle = .ok token s' ∧
        token.kind = .endOfInput := by
  obtain ⟨found, middle, parsed, h⟩ := Run.bind_eq_ok h
  obtain ⟨token, after, read, h⟩ := Run.bind_eq_ok h
  split at h
  next ends =>
    cases h
    exact ⟨token, middle, parsed, read, isEnd_iff.mp ends⟩
  · exact absurd h unexpected_ne_ok

/-- What a declaration declares is spelled like a name. -/
theorem isIdentifier_of_declaredName {token : Token α} {name : String} {s s' : σ}
    (named : token.Named) (found : declaredName token s = .ok name s') :
    isIdentifier name.toList := by
  obtain ⟨kind, location⟩ := token
  cases kind with
  | literal value =>
      cases value with
      | symbol symbol => cases found; exact named symbol rfl
      | _ => cases found
  | operator spelled =>
      dsimp only [declaredName] at found
      split at found
      next identifier => cases found; exact identifier
      · cases found
  | endOfInput => cases found

end Parser

namespace TokenSource.Simulates

variable {S : TokenSource α σ} {T : TokenSource α τ} {R : σ → τ → Prop}

theorem operator? (h : S.Simulates T R) (name : String) :
    Alike R (Parser.operator? S name) (Parser.operator? T name) := by
  intro s t related
  have same := h.operators related
  change Agree R (EStateM.Result.ok ((S.view s).operators.find? name) s)
    (EStateM.Result.ok ((T.view t).operators.find? name) t)
  rw [same]
  exact ⟨rfl, related⟩

theorem skipIf (h : S.Simulates T R) (name : String) :
    Alike R (Parser.skipIf S name) (Parser.skipIf T name) := by
  refine (h.peek .operator).bind fun token => ?_
  split
  · exact (h.next .operator).bind fun _ => .pure true
  · exact .pure false

theorem leftPower (h : S.Simulates T R) : Alike R (Parser.leftPower S) (Parser.leftPower T) := by
  refine (h.peek .operator).bind fun token => ?_
  obtain ⟨kind, location⟩ := token
  cases kind with
  | operator name => exact (h.operator? name).bind fun _ => .pure _
  | _ => exact .pure 0

theorem endsProgram (h : S.Simulates T R) (op : BinaryOp) :
    Alike R (Parser.endsProgram S op) (Parser.endsProgram T op) := by
  unfold Parser.endsProgram
  split
  · exact (h.peek .operand).bind fun _ => .pure _
  · exact .pure false

variable [Numeral α]

omit [Numeral α] in
theorem invalidOperand (role : OperandRole) (found : String) (location : Location) :
    Alike R (Parser.invalidOperand role found location : ParseM σ β)
      (Parser.invalidOperand role found location) :=
  .throw _

theorem unexpected (token : Token α) :
    Alike R (Parser.unexpected token : ParseM σ β) (Parser.unexpected token) := by
  unfold Parser.unexpected
  split <;> exact .throw _

theorem expect (h : S.Simulates T R) (name : String) :
    Alike R (Parser.expect S name) (Parser.expect T name) := by
  refine (h.next .operator).bind fun token => ?_
  split
  · exact .pure ()
  · exact .throw _

variable {e : Power → ParseM σ (Expr α)} {e' : Power → ParseM τ (Expr α)}

theorem arguments (h : S.Simulates T R) (inner : ∀ power, Alike R (e power) (e' power))
    (closing : String) (steps : Nat) :
    Alike R (Parser.arguments S e closing steps) (Parser.arguments T e' closing steps) := by
  induction steps with
  | zero => exact (h.next .operand).bind fun token => unexpected token
  | succ steps ih =>
      refine (inner 0).bind fun first => (h.skipIf ",").bind fun more => ?_
      split
      · exact ih.bind fun rest => .pure _
      · exact (h.expect closing).bind fun _ => .pure _

theorem parameters (location : Location) (list : List (Expr α)) :
    Alike R (Parser.parameters location list) (Parser.parameters location list) := by
  induction list with
  | nil => exact .pure []
  | cons first rest ih =>
      cases first with
      | symbol symbol => exact ih.bind fun rest => .pure _
      | _ => exact invalidOperand _ _ _

theorem definition (h : S.Simulates T R) (inner : ∀ power, Alike R (e power) (e' power))
    (location : Location) :
    Alike R (Parser.definition S e location) (Parser.definition T e' location) := by
  refine (inner 0).bind fun signature => ?_
  split
  · refine (parameters _ _).bind fun names => (h.expect "is").bind fun _ => ?_
    exact (inner 0).bind fun body => (h.expect "end").bind fun _ => .pure _
  · exact invalidOperand _ _ _

theorem declaredName (token : Token α) :
    Alike R (Parser.declaredName token) (Parser.declaredName token) := by
  unfold Parser.declaredName
  split
  · exact .pure _
  · split
    · exact .pure _
    · exact invalidOperand _ _ _
  · exact invalidOperand _ _ _

variable [Scalar α]

theorem declaredPower (h : S.Simulates T R) (inner : ∀ power, Alike R (e power) (e' power)) :
    Alike R (Parser.declaredPower S e) (Parser.declaredPower T e') := by
  refine (h.peek .operand).bind fun first => (inner 1000).bind fun operand => ?_
  split
  · split
    · exact .pure _
    · exact .throw _
  · exact .throw _

/-- A declaration changes the grammar of both, since what it declares is spelled like a name. -/
theorem declaration (h : S.Simulates T R) (inner : ∀ power, Alike R (e power) (e' power))
    (fixity : Fixity) :
    Alike R (Parser.declaration S e fixity) (Parser.declaration T e' fixity) := by
  refine (h.next .operand).bind_of fun s t token s' related read => ?_
  refine (declaredName token).bind_of fun s t name s' _ found => ?_
  have identifier := Parser.isIdentifier_of_declaredName (h.named related read) found
  refine (h.declaredPower inner).bind fun power => ?_
  exact (h.declare fixity power identifier).bind fun _ => .pure _

theorem applyPrefix (h : S.Simulates T R) (inner : ∀ power, Alike R (e power) (e' power))
    (location : Location) (rule : PrefixRule) :
    Alike R (Parser.applyPrefix S e location rule) (Parser.applyPrefix T e' location rule) := by
  cases rule with
  | unary op power => exact (inner power).bind fun _ => .pure _
  | apply head power => exact (inner power).bind fun _ => .pure _
  | group closing => exact (inner 0).bind fun _ => (h.expect closing).bind fun _ => .pure _
  | branch =>
      refine (inner 0).bind fun condition => (h.expect "then").bind fun _ => ?_
      refine (inner 0).bind fun consequence => (h.expect "else").bind fun _ => ?_
      exact (inner 0).bind fun alternative => (h.expect "end").bind fun _ => .pure _
  | function => exact h.definition inner location
  | declare fixity => exact h.declaration inner fixity

theorem prefixForm (h : S.Simulates T R) (inner : ∀ power, Alike R (e power) (e' power))
    (token : Token α) :
    Alike R (Parser.prefixForm S e token) (Parser.prefixForm T e' token) := by
  unfold Parser.prefixForm
  split
  · exact .pure _
  · exact unexpected token
  · refine (h.operator? _).bind fun operator => ?_
    split
    · exact unexpected token
    · exact h.applyPrefix inner token.location _

variable {list : String → ParseM σ (List (Expr α))} {list' : String → ParseM τ (List (Expr α))}

omit [Scalar α] in
theorem applyInfix (h : S.Simulates T R) (inner : ∀ power, Alike R (e power) (e' power))
    (listed : ∀ closing, Alike R (list closing) (list' closing)) (location : Location)
    (power : Power) (left : Expr α) (rule : InfixRule) :
    Alike R (Parser.applyInfix S list e location power left rule)
      (Parser.applyInfix T list' e' location power left rule) := by
  cases rule with
  | binary op rightAssociative =>
      refine (h.endsProgram op).bind fun ends => ?_
      split
      · exact .pure left
      · exact (inner _).bind fun _ => .pure _
  | postfixed op => exact .pure _
  | apply head => exact (inner power).bind fun _ => .pure _
  | composite closing bracket =>
      dsimp only [Parser.applyInfix]
      split
      · refine (h.skipIf closing).bind fun empty => ?_
        split
        · exact .pure _
        · exact (listed closing).bind fun _ => .pure _
      · exact invalidOperand _ _ _
  | branch =>
      refine (inner 0).bind fun condition => (h.expect "else").bind fun _ => ?_
      exact (inner power).bind fun alternative => .pure _

omit [Scalar α] in
theorem infixForm (h : S.Simulates T R) (inner : ∀ power, Alike R (e power) (e' power))
    (listed : ∀ closing, Alike R (list closing) (list' closing)) (token : Token α)
    (left : Expr α) :
    Alike R (Parser.infixForm S list e token left) (Parser.infixForm T list' e' token left) := by
  unfold Parser.infixForm
  split
  · refine (h.operator? _).bind fun found => ?_
    split
    · split
      · exact h.applyInfix inner listed token.location _ left _
      · exact unexpected token
    · exact unexpected token
  · exact unexpected token

/-- Both functions of the recursion at once, since each calls the other with fewer steps. -/
theorem expression_and_extend (h : S.Simulates T R) (steps : Nat) :
    (∀ power, Alike R (Parser.expression S steps power) (Parser.expression T steps power)) ∧
      ∀ power left, Alike R (Parser.extend S steps power left)
        (Parser.extend T steps power left) := by
  induction steps with
  | zero =>
      constructor
      · intro power
        exact (h.next .operand).bind fun token => unexpected token
      · intro power left
        refine h.leftPower.bind fun found => ?_
        split
        · exact (h.next .operator).bind fun token => unexpected token
        · exact .pure left
  | succ steps ih =>
      obtain ⟨inner, later⟩ := ih
      constructor
      · intro power
        refine (h.next .operand).bind fun token => ?_
        exact (h.prefixForm inner token).bind fun left => later power left
      · intro power left
        refine h.leftPower.bind fun found => ?_
        split
        · refine (h.next .operator).bind fun token => ?_
          refine (h.infixForm inner (fun closing => h.arguments inner closing steps) token left).bind ?_
          exact fun left => later power left
        · exact .pure left

theorem program (h : S.Simulates T R) (steps : Nat) :
    Alike R (Parser.program S steps) (Parser.program T steps) := by
  refine ((h.expression_and_extend steps).1 0).bind fun result => ?_
  refine (h.next .operator).bind fun token => ?_
  split
  · exact .pure result
  · exact unexpected token

end TokenSource.Simulates

end IntervalCalc
