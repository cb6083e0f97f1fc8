import IntervalCalc.Interval.Power
import IntervalCalc.Interval.Trig
import IntervalCalc.Proofs.Scalar.Order

/-!
The order of bounds. Every interval is put together from two ends by `Interval.between`, or is one
of a few constants. Over binary64 numbers the bounds are then in order, unless one of them is
undefined, which products and differences of infinite bounds can make it.
-/

namespace IntervalCalc

namespace Interval

section Making

variable {α : Type} [Scalar α] {P : Interval α → Prop}

/-- A property of all intervals with two ends in either order, and of the constants. -/
structure Closed (P : Interval α → Prop) : Prop where
  between (a b : α) : P (between a b)
  point (x : α) : P (point x)
  entire : P entire
  signRange : P signRange
  one : P one

/-- Every interval is as good as any other. -/
theorem Closed.trivial : Closed fun _ : Interval α => True :=
  ⟨fun _ _ => .intro, fun _ => .intro, .intro, .intro, .intro⟩

namespace Closed

variable (closed : Closed P) {X Y Z : Interval α}

include closed

theorem recip (found : X.recip = .ok Z) : P Z := by
  unfold Interval.recip at found
  split at found
  · cases found
    exact closed.between _ _
  · cases found

theorem div (found : X.div Y = .ok Z) : P Z := by
  unfold Interval.div at found
  cases inverted : Y.recip with
  | error error => rw [inverted] at found; cases found
  | ok inverse =>
      rw [inverted] at found
      cases found
      exact closed.between _ _

theorem positivePow {power : α} (found : X.positivePow power = .ok Z) : P Z := by
  unfold Interval.positivePow at found
  repeat' split at found
  all_goals cases found
  all_goals exact closed.between _ _

theorem pow {power : α} (found : X.pow power = .ok Z) : P Z := by
  unfold Interval.pow at found
  split at found
  · cases found
    exact closed.one
  · split at found
    · cases raised : X.positivePow (-power) with
      | error error => rw [raised] at found; cases found
      | ok R =>
          rw [raised] at found
          exact closed.recip found
    · exact closed.positivePow found

theorem sin (X : Interval α) : P X.sin := by
  unfold Interval.sin
  split
  · exact closed.signRange
  · dsimp only
    split <;> first | exact closed.between _ _ | exact closed.signRange

theorem tan (X : Interval α) : P X.tan := by
  unfold Interval.tan
  split
  · exact closed.entire
  · split <;> first | exact closed.between _ _ | exact closed.entire

theorem log (found : X.log = .ok Z) : P Z := by
  unfold Interval.log at found
  split at found <;> cases found
  exact closed.between _ _

theorem log10 (found : X.log10 = .ok Z) : P Z := by
  unfold Interval.log10 at found
  split at found <;> cases found
  exact closed.between _ _

theorem asin (found : X.asin = .ok Z) : P Z := by
  unfold Interval.asin at found
  split at found <;> cases found
  exact closed.between _ _

end Closed

/-- The intervals that the operations make, to any depth, from numbers supplied from outside. -/
inductive Made (supplied : α → Prop) : Interval α → Prop
  | between {a b : α} : supplied a → supplied b → Made supplied (between a b)
  | point {x : α} : supplied x → Made supplied (point x)
  | entire : Made supplied entire
  | signRange : Made supplied signRange
  | one : Made supplied one
  | withInf {X : Interval α} {bound : α} : Made supplied X → supplied bound →
      Made supplied (X.withInf bound)
  | withSup {X : Interval α} {bound : α} : Made supplied X → supplied bound →
      Made supplied (X.withSup bound)
  | hull {X Y : Interval α} : Made supplied X → Made supplied Y → Made supplied (X.hull Y)
  | hullWith {X : Interval α} {number : α} : Made supplied X → supplied number →
      Made supplied (X.hullWith number)
  | shift {X : Interval α} {distance : α} : Made supplied X → supplied distance →
      Made supplied (X.shift distance)
  | neg {X : Interval α} : Made supplied X → Made supplied (-X)
  | add {X Y : Interval α} : Made supplied X → Made supplied Y → Made supplied (X + Y)
  | sub {X Y : Interval α} : Made supplied X → Made supplied Y → Made supplied (X - Y)
  | mul {X Y : Interval α} : Made supplied X → Made supplied Y → Made supplied (X * Y)
  | recip {X Z : Interval α} : Made supplied X → X.recip = .ok Z → Made supplied Z
  | div {X Y Z : Interval α} : Made supplied X → Made supplied Y → X.div Y = .ok Z →
      Made supplied Z
  | pow {X Z : Interval α} {power : α} : Made supplied X → supplied power → X.pow power = .ok Z →
      Made supplied Z
  | sin {X : Interval α} : Made supplied X → Made supplied X.sin
  | cos {X : Interval α} : Made supplied X → Made supplied X.cos
  | tan {X : Interval α} : Made supplied X → Made supplied X.tan
  | cot {X : Interval α} : Made supplied X → Made supplied X.cot
  | asin {X Z : Interval α} : Made supplied X → X.asin = .ok Z → Made supplied Z
  | log {X Z : Interval α} : Made supplied X → X.log = .ok Z → Made supplied Z
  | log10 {X Z : Interval α} : Made supplied X → X.log10 = .ok Z → Made supplied Z
  | exp {X : Interval α} : Made supplied X → Made supplied X.exp

theorem Made.closed {supplied : α → Prop} {X : Interval α} (made : X.Made supplied)
    (closed : Closed P) : P X := by
  cases made with
  | between | hull | hullWith | shift | neg | add | sub | mul | cot | exp =>
      exact closed.between _ _
  | withInf => exact closed.between _ _
  | withSup => exact closed.between _ _
  | point => exact closed.point _
  | entire => exact closed.entire
  | signRange => exact closed.signRange
  | one => exact closed.one
  | sin => exact closed.sin _
  | cos => exact closed.sin _
  | tan => exact closed.tan _
  | recip _ found => exact closed.recip found
  | div _ _ found => exact closed.div found
  | pow _ _ found => exact closed.pow found
  | asin _ found => exact closed.asin found
  | log _ found => exact closed.log found
  | log10 _ found => exact closed.log10 found

end Making

/-- The bounds are in order exactly if both of them are defined. -/
def Ordered (X : Interval Float) : Prop :=
  X.inf ≤ X.sup ↔ ¬ X.inf.isNaN ∧ ¬ X.sup.isNaN

theorem Ordered.of_le {X : Interval Float}
    (h : ¬ X.inf.isNaN → ¬ X.sup.isNaN → X.inf ≤ X.sup) : X.Ordered :=
  ⟨Binary64.not_isNaN_of_le, fun ⟨low, high⟩ => h low high⟩

theorem ordered_point (x : Float) : (point x).Ordered := by
  refine .of_le fun defined _ => ?_
  by_cases ordered : x ≤ x
  · exact ordered
  · exact Binary64.le_of_not_le defined defined ordered

theorem closed_ordered : Closed Ordered where
  between a b := by
    refine .of_le fun low high => ?_
    unfold between at low high ⊢
    split
    next le => exact le
    next unordered =>
      rw [if_neg unordered] at low high
      exact Binary64.le_of_not_le high low unordered
  point := ordered_point
  entire := .of_le fun _ _ => by decide +kernel
  signRange := .of_le fun _ _ => by decide +kernel
  one := ordered_point 1

end Interval

end IntervalCalc
