import IntervalCalc.Proofs.Parsing.Lookahead

/-!
The operator tables of the language. Only names are declared, so a table always has the separator
of the standard grammar, and as long as every declared power exceeds that of the separator,
whatever an operator leaves open at its end holds against a separator.
-/

namespace IntervalCalc

/-- The power of the operand that a rule leaves open at its end. -/
def PrefixRule.openPower? : PrefixRule → Option Power
  | unary _ power => some power
  | apply _ power => some power
  | _ => none

def InfixRule.openPower? (left : Power) : InfixRule → Option Power
  | binary _ rightAssociative => some (Parser.rightPower left rightAssociative)
  | apply _ => some left
  | branch => some left
  | _ => none

def InfixRule.closing? : InfixRule → Option String
  | composite closing _ => some closing
  | _ => none

def InfixRule.isSeparator : InfixRule → Bool
  | binary .sequence _ => true
  | _ => false

/-- What an operator leaves open holds against a separator, and only the separator itself binds no
tighter than one. -/
def Operator.Steady (name : String) (operator : Operator) : Prop :=
  (∀ rule ∈ operator.prefixRule, ∀ q ∈ rule.openPower?, 10 ≤ q) ∧
    (∀ rule ∈ operator.infixRule, ∀ q ∈ rule.openPower? operator.leftPower, 10 ≤ q) ∧
    (∀ rule ∈ operator.infixRule, ∀ closing ∈ rule.closing?, closing ≠ ";") ∧
    (∀ rule ∈ operator.infixRule, rule.isSeparator → name = ";") ∧
    (operator.leftPower = 0 ∨ 10 < operator.leftPower ∨ name = ";")

instance (name : String) (operator : Operator) : Decidable (operator.Steady name) :=
  inferInstanceAs (Decidable (_ ∧ _))

/-- A table grown from the standard one by declaring names. -/
structure OperatorTable.Grown (operators : OperatorTable) : Prop where
  symbols : Vocabulary.symbols operators.keys = Vocabulary.symbols OperatorTable.standard.keys
  separator : operators.find? ";" = some (.binary 10 .sequence)
  known {name : String} {operator : Operator} : operators.find? name = some operator →
    OperatorTable.standard.find? name = some operator ∨
      ∃ fixity head power, operator = declaredOperator fixity head power

/-- Every declared operator of a table has a power above some other one. -/
def OperatorTable.DeclaredAbove (power : Power) (operators : OperatorTable) : Prop :=
  ∀ name fixity head declared,
    operators.find? name = some (declaredOperator fixity head declared) → power < declared

/-- A table grown from the standard one, where what is declared exceeds the separator. -/
structure OperatorTable.Grounded (operators : OperatorTable) : Prop extends operators.Grown where
  above : operators.DeclaredAbove 10

/-- Whether an operator calls a function by its name. -/
def Operator.isCall (operator : Operator) : Bool :=
  match operator.prefixRule, operator.infixRule with
  | some (.apply _ _), _ => true
  | _, some (.apply _) => true
  | _, _ => false

theorem isCall_declaredOperator (fixity : Fixity) (head : Symbol) (power : Power) :
    (declaredOperator fixity head power).isCall := by
  cases fixity <;> rfl

theorem declaredOperator_inj {fixity fixity' : Fixity} {head head' : Symbol}
    {power power' : Power}
    (same : declaredOperator fixity head power = declaredOperator fixity' head' power') :
    fixity = fixity' ∧ head = head' ∧ power = power' := by
  cases fixity with
  | prefixed =>
      cases fixity' with
      | prefixed => cases same; exact ⟨rfl, rfl, rfl⟩
      | infixed => cases same
  | infixed =>
      cases fixity' with
      | prefixed => cases same
      | infixed => cases same; exact ⟨rfl, rfl, rfl⟩

namespace OperatorTable

theorem Grown.standard : Grown .standard :=
  ⟨rfl, rfl, .inl⟩

/-- Nothing of the standard table is declared. -/
theorem Grounded.standard : Grounded .standard := by
  refine ⟨.standard, fun name fixity head declared found => ?_⟩
  have none : ∀ entry ∈ OperatorTable.standard.entries, ¬ entry.2.isCall := by decide
  exact absurd (isCall_declaredOperator fixity head declared)
    (none (name, _) (OrderedMap.mem_of_find? found))

section Declaring

variable {operators : OperatorTable} {name : String} (identifier : isIdentifier name.toList)
variable (fixity : Fixity) (head : Symbol)

include identifier

theorem Grown.declare (h : operators.Grown) (power : Power) :
    Grown (operators.insert name (declaredOperator fixity head power)) := by
  refine ⟨(symbols_insert identifier _).trans h.symbols, ?_, ?_⟩
  · rw [OrderedMap.find?_insert, if_neg, h.separator]
    intro same
    rw [← eq_of_beq same] at identifier
    cases identifier
  · intro other operator found
    rw [OrderedMap.find?_insert] at found
    split at found
    · cases found
      exact .inr ⟨fixity, head, power, rfl⟩
    · exact h.known found

theorem Grounded.declare (h : operators.Grounded) {power : Power} (above : 10 < power) :
    Grounded (operators.insert name (declaredOperator fixity head power)) := by
  refine ⟨h.toGrown.declare identifier fixity head power, ?_⟩
  intro other fixity' head' power' found
  rw [OrderedMap.find?_insert] at found
  split at found
  · rw [← (declaredOperator_inj (Option.some.inj found)).2.2]
    exact above
  · exact h.above other fixity' head' power' found

end Declaring

theorem Grounded.steady {operators : OperatorTable} (h : operators.Grounded) {name : String}
    {operator : Operator} (found : operators.find? name = some operator) :
    operator.Steady name := by
  have standard : ∀ entry ∈ OperatorTable.standard.entries, entry.2.Steady entry.1 := by decide
  rcases h.known found with standing | ⟨fixity, head, power, rfl⟩
  · exact standard (name, operator) (OrderedMap.mem_of_find? standing)
  · have above := h.above name fixity head power found
    cases fixity with
    | prefixed =>
        refine ⟨fun rule has q opened => ?_, fun _ absurd => (by cases absurd),
          fun _ absurd => (by cases absurd), fun _ absurd => (by cases absurd), .inl rfl⟩
        cases has
        cases opened
        exact Nat.le_of_lt above
    | infixed =>
        refine ⟨fun _ absurd => (by cases absurd), fun rule has q opened => ?_,
          fun rule has closing absurd => ?_, fun rule has absurd => ?_, .inr (.inl above)⟩
        · cases has
          cases opened
          exact Nat.le_of_lt above
        · cases has
          cases absurd
        · cases has
          cases absurd

end OperatorTable

end IntervalCalc
