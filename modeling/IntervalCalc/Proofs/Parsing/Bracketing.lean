import IntervalCalc.Grammar.Parser

/-!
Bracketings of operands and operators. A bracketing is well grouped if no operator takes an
operand that another one holds tighter. Every sequence of words has one that is well grouped, and
it is the one that climbing by powers finds.
-/

namespace IntervalCalc

variable {α : Type}

/-- What an operator before its operand makes of it. -/
inductive PrefixForm where
  | unary (op : UnaryOp)
  | apply (head : Symbol)

/-- What an operator between two operands makes of them. -/
inductive InfixForm where
  | binary (op : BinaryOp) (rightAssociative : Bool)
  | apply (head : Symbol)

namespace PrefixForm

def rule (form : PrefixForm) (power : Power) : PrefixRule :=
  match form with
  | unary op => .unary op power
  | apply head => .apply head power

def expr (form : PrefixForm) (operand : Expr α) : Expr α :=
  match form with
  | unary op => .unary op operand
  | apply head => .composite head [operand] .round

end PrefixForm

namespace InfixForm

def rule : InfixForm → InfixRule
  | binary op rightAssociative => .binary op rightAssociative
  | apply head => .apply head

def expr (form : InfixForm) (left right : Expr α) : Expr α :=
  match form with
  | binary op _ => .binary op left right
  | apply head => .composite head [left, right] .round

def rightPower (form : InfixForm) (power : Power) : Power :=
  match form with
  | binary _ true => power - 1
  | _ => power

end InfixForm

/-- A literal, or an operator with the rule that it is used by and its power. -/
inductive Word (α : Type) where
  | literal (value : Expr α)
  | prefixed (form : PrefixForm) (power : Power)
  | infixed (form : InfixForm) (power : Power)
  | postfixed (op : UnaryOp) (power : Power)

/-- The power with which a word holds the operand before it. -/
def Word.leftPower? : Word α → Option Power
  | infixed _ power => some power
  | postfixed _ power => some power
  | _ => none

def firstPower? (words : List (Word α)) : Option Power :=
  words.head?.bind Word.leftPower?

/-- Words bracketed into one operand. -/
inductive Bracketing (α : Type) where
  | literal (value : Expr α)
  | prefixed (form : PrefixForm) (power : Power) (operand : Bracketing α)
  | infixed (form : InfixForm) (power : Power) (left right : Bracketing α)
  | postfixed (op : UnaryOp) (power : Power) (operand : Bracketing α)

namespace Bracketing

def words : Bracketing α → List (Word α)
  | literal value => [.literal value]
  | prefixed form power operand => .prefixed form power :: operand.words
  | infixed form power left right => left.words ++ .infixed form power :: right.words
  | postfixed op power operand => operand.words ++ [.postfixed op power]

def expr : Bracketing α → Expr α
  | literal value => value
  | prefixed form _ operand => form.expr operand.expr
  | infixed form _ left right => form.expr left.expr right.expr
  | postfixed op _ operand => .unary op operand.expr

/-- The left powers of the infix and postfix nodes on the left spine. -/
def leftPowers : Bracketing α → List Power
  | infixed _ power left _ => power :: left.leftPowers
  | postfixed _ power operand => power :: operand.leftPowers
  | _ => []

/-- The right powers of the nodes on the right spine that have a right operand. -/
def rightPowers : Bracketing α → List Power
  | prefixed _ power operand => power :: operand.rightPowers
  | infixed form power _ right => form.rightPower power :: right.rightPowers
  | _ => []

theorem mem_leftPowers {tree : Bracketing α} {q : Power} (h : q ∈ tree.leftPowers) :
    ∃ word ∈ tree.words, word.leftPower? = some q := by
  induction tree with
  | literal value => cases h
  | prefixed form power operand => cases h
  | infixed form power left right ih =>
      rcases List.mem_cons.mp h with rfl | inside
      · exact ⟨.infixed form q, by simp [words], rfl⟩
      · obtain ⟨word, member, same⟩ := ih inside
        exact ⟨word, by simp [words, member], same⟩
  | postfixed op power operand ih =>
      rcases List.mem_cons.mp h with rfl | inside
      · exact ⟨.postfixed op q, by simp [words], rfl⟩
      · obtain ⟨word, member, same⟩ := ih inside
        exact ⟨word, by simp [words, member], same⟩

/-- Every right operand is held tighter inside than from its left, and no left operand is held
less tight inside than from its right. -/
def Grouped : Bracketing α → Prop
  | literal _ => True
  | prefixed _ power operand => operand.Grouped ∧ ∀ q ∈ operand.leftPowers, power < q
  | infixed form power left right =>
    left.Grouped ∧ right.Grouped ∧ (∀ q ∈ right.leftPowers, form.rightPower power < q) ∧
      ∀ q ∈ left.rightPowers, power ≤ q
  | postfixed _ power operand => operand.Grouped ∧ ∀ q ∈ operand.rightPowers, power ≤ q

end Bracketing

open Bracketing

/-- Climbing by powers from an operand, or from nothing: the bracketing of the first words whose
operators bind tighter than a power, and the words left over. -/
inductive Climbs : Power → Option (Bracketing α) → List (Word α) → Bracketing α →
    List (Word α) → Prop
  | literal {p : Power} {value : Expr α} {words rest : List (Word α)} {tree : Bracketing α} :
      Climbs p (some (.literal value)) words tree rest →
      Climbs p none (.literal value :: words) tree rest
  | prefixed {p power : Power} {form : PrefixForm} {words later rest : List (Word α)}
      {operand tree : Bracketing α} :
      Climbs power none words operand later →
      Climbs p (some (.prefixed form power operand)) later tree rest →
      Climbs p none (.prefixed form power :: words) tree rest
  | infixed {p power : Power} {form : InfixForm} {words later rest : List (Word α)}
      {left right tree : Bracketing α} :
      p < power →
      Climbs (form.rightPower power) none words right later →
      Climbs p (some (.infixed form power left right)) later tree rest →
      Climbs p (some left) (.infixed form power :: words) tree rest
  | postfixed {p power : Power} {op : UnaryOp} {words rest : List (Word α)}
      {left tree : Bracketing α} :
      p < power →
      Climbs p (some (.postfixed op power left)) words tree rest →
      Climbs p (some left) (.postfixed op power :: words) tree rest
  | stop {p : Power} {words : List (Word α)} {left : Bracketing α} :
      (∀ q ∈ firstPower? words, q ≤ p) → Climbs p (some left) words left words

namespace Climbs

variable {p : Power} {seed : Option (Bracketing α)} {words rest : List (Word α)}
variable {tree : Bracketing α}

theorem unique {tree' : Bracketing α} {rest' : List (Word α)} (h : Climbs p seed words tree rest)
    (h' : Climbs p seed words tree' rest') : tree = tree' ∧ rest = rest' := by
  induction h generalizing tree' rest' with
  | literal _ ih =>
      cases h' with
      | literal later => exact ih later
  | prefixed _ _ ihOperand ih =>
      cases h' with
      | prefixed inner later =>
          obtain ⟨rfl, rfl⟩ := ihOperand inner
          exact ih later
  | infixed tighter _ _ ihRight ih =>
      cases h' with
      | infixed _ inner later =>
          obtain ⟨rfl, rfl⟩ := ihRight inner
          exact ih later
      | stop waits => exact absurd (waits _ rfl) (Nat.not_le_of_lt tighter)
  | postfixed tighter _ ih =>
      cases h' with
      | postfixed _ later => exact ih later
      | stop waits => exact absurd (waits _ rfl) (Nat.not_le_of_lt tighter)
  | stop waits =>
      cases h' with
      | infixed tighter _ _ => exact absurd (waits _ rfl) (Nat.not_le_of_lt tighter)
      | postfixed tighter _ => exact absurd (waits _ rfl) (Nat.not_le_of_lt tighter)
      | stop _ => exact ⟨rfl, rfl⟩

/-- What may be extended with words at a power: a well grouped operand that climbing at this
power gave, and that the next operator does not take apart. -/
structure Ready (p : Power) (left : Bracketing α) (words : List (Word α)) : Prop where
  grouped : left.Grouped
  above : ∀ q ∈ left.leftPowers, p < q
  whole : ∀ q ∈ firstPower? words, ∀ m ∈ left.rightPowers, q ≤ m

/-- Climbing groups well and takes the words in their order. -/
theorem grouped (h : Climbs p seed words tree rest) (ready : ∀ left ∈ seed, Ready p left words) :
    Ready p tree rest ∧ (∀ q ∈ firstPower? rest, q ≤ p) ∧
      (seed.elim [] Bracketing.words) ++ words = tree.words ++ rest := by
  induction h with
  | literal _ ih =>
      refine ih fun left member => ?_
      cases member
      exact ⟨trivial, fun _ absurd => (by cases absurd), fun _ _ _ absurd => (by cases absurd)⟩
  | @prefixed p power form words later rest operand tree _ _ ihOperand ih =>
      obtain ⟨inner, waits, order⟩ := ihOperand fun left member => (by cases member)
      -- the operand stopped where the next operator is too loose, so it may stand under the prefix
      obtain ⟨done, stops, order'⟩ := ih fun left member => by
        cases member
        refine ⟨⟨inner.grouped, inner.above⟩, fun _ absurd => (by cases absurd), ?_⟩
        intro q first m member
        rcases List.mem_cons.mp member with rfl | member
        · exact waits q first
        · exact inner.whole q first m member
      obtain rfl : words = operand.words ++ later := order
      exact ⟨done, stops, order'⟩
  | @infixed p power form words later rest left right tree tighter _ _ ihRight ih =>
      obtain ⟨inner, waits, order⟩ := ihRight fun left member => (by cases member)
      have before := ready left rfl
      obtain ⟨done, stops, order'⟩ := ih fun left' member => by
        cases member
        refine ⟨⟨before.grouped, inner.grouped, inner.above, before.whole power rfl⟩, ?_, ?_⟩
        · intro q member
          rcases List.mem_cons.mp member with rfl | member
          · exact tighter
          · exact before.above q member
        · intro q first m member
          rcases List.mem_cons.mp member with rfl | member
          · exact waits q first
          · exact inner.whole q first m member
      obtain rfl : words = right.words ++ later := order
      refine ⟨done, stops, ?_⟩
      rw [← order']
      simp [Bracketing.words]
  | @postfixed p power op words rest left tree tighter _ ih =>
      have before := ready left rfl
      obtain ⟨done, stops, order'⟩ := ih fun left' member => by
        cases member
        refine ⟨⟨before.grouped, before.whole power rfl⟩, ?_, fun _ _ _ absurd => (by cases absurd)⟩
        intro q member
        rcases List.mem_cons.mp member with rfl | member
        · exact tighter
        · exact before.above q member
      refine ⟨done, stops, ?_⟩
      rw [← order']
      simp [Bracketing.words]
  | stop waits => exact ⟨ready _ rfl, waits, rfl⟩

/-- A well grouped bracketing is climbed through: what comes of its words and later ones is what
comes of the later ones behind it. -/
theorem through {left : Bracketing α} (ready : Ready p left words)
    (later : Climbs p (some left) words tree rest) :
    Climbs p none (left.words ++ words) tree rest := by
  induction left generalizing p words tree rest with
  | literal value => exact .literal later
  | prefixed form power operand ih =>
      have inner : Ready power operand words :=
        ⟨ready.grouped.1, ready.grouped.2, fun q first m member =>
          ready.whole q first m (List.mem_cons_of_mem _ member)⟩
      have waits : ∀ q ∈ firstPower? words, q ≤ power := fun q first =>
        ready.whole q first power List.mem_cons_self
      exact .prefixed (ih inner (.stop waits)) later
  | infixed form power left right ihLeft ihRight =>
      obtain ⟨groupedLeft, groupedRight, above, below⟩ := ready.grouped
      have tighter : p < power := ready.above power List.mem_cons_self
      have inner : Ready (form.rightPower power) right words :=
        ⟨groupedRight, above, fun q first m member =>
          ready.whole q first m (List.mem_cons_of_mem _ member)⟩
      have waits : ∀ q ∈ firstPower? words, q ≤ form.rightPower power := fun q first =>
        ready.whole q first _ List.mem_cons_self
      have before : Ready p left (.infixed form power :: (right.words ++ words)) := by
        refine ⟨groupedLeft, fun q member => ready.above q (List.mem_cons_of_mem _ member), ?_⟩
        intro q first m member
        cases first
        exact below m member
      -- the left operand goes on with the operator, the right one, and what comes later
      have whole := ihLeft before (.infixed tighter (ihRight inner (.stop waits)) later)
      rw [Bracketing.words, List.append_assoc]
      exact whole
  | postfixed op power operand ih =>
      have tighter : p < power := ready.above power List.mem_cons_self
      have before : Ready p operand (.postfixed op power :: words) := by
        refine ⟨ready.grouped.1, fun q member => ready.above q (List.mem_cons_of_mem _ member), ?_⟩
        intro q first m member
        cases first
        exact ready.grouped.2 m member
      have whole := ih before (.postfixed tighter later)
      rw [Bracketing.words, List.append_assoc]
      exact whole

/-- A well grouped bracketing of operators with positive powers is the one that climbing finds. -/
theorem of_grouped (h : tree.Grouped) (positive : ∀ q ∈ tree.leftPowers, 0 < q) :
    Climbs 0 none tree.words tree [] := by
  have ready : Ready 0 tree [] := ⟨h, positive, fun _ absurd => (by cases absurd)⟩
  have whole := through ready (.stop fun _ absurd => (by cases absurd))
  rw [List.append_nil] at whole
  exact whole

end Climbs

end IntervalCalc
