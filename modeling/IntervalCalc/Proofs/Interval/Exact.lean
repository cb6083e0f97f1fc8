import Mathlib
import IntervalCalc.Interval.Power

/-!
Exact numbers. Over an ordered field the bounds of intervals are computed without rounding, and
every operation of intervals has its bounds in closed form: the least and the greatest of a few
values of the operation on bounds.
-/

namespace IntervalCalc

/-- The functions of a number type that an ordered field does not bring along. -/
class Functions (K : Type) where
  pow : K → K → K
  exp : K → K
  log : K → K
  log10 : K → K
  sin : K → K
  tan : K → K
  asin : K → K
  pi : K
  infinity : K
  fingerprint : K → Nat

/-- A power to a whole number is the field's, where the field has one. -/
def Functions.WholePowers (K : Type) [Field K] [LinearOrder K] [Functions K] : Prop :=
  ∀ (x : K) (n : ℤ), x ≠ 0 ∨ 0 ≤ n → pow x n = x ^ n

/-- A number of an ordered field, computed with exactly. -/
@[ext] structure Exact (K : Type) where
  val : K

variable {K : Type} [Field K] [LinearOrder K] [FloorRing K] [Functions K]

instance : Scalar (Exact K) where
  zero := ⟨0⟩
  one := ⟨1⟩
  natCast n := ⟨n⟩
  add x y := ⟨x.val + y.val⟩
  sub x y := ⟨x.val - y.val⟩
  mul x y := ⟨x.val * y.val⟩
  div x y := ⟨x.val / y.val⟩
  neg x := ⟨-x.val⟩
  beq x y := x.val = y.val
  le x y := x.val ≤ y.val
  lt x y := x.val < y.val
  decLe x y := inferInstanceAs (Decidable (x.val ≤ y.val))
  decLt x y := inferInstanceAs (Decidable (x.val < y.val))
  abs x := ⟨|x.val|⟩
  rem x y :=
    let quotient := x.val / y.val
    ⟨x.val - y.val * (if 0 ≤ quotient then ⌊quotient⌋ else ⌈quotient⌉ : ℤ)⟩
  pow x y := ⟨Functions.pow x.val y.val⟩
  exp x := ⟨Functions.exp x.val⟩
  log x := ⟨Functions.log x.val⟩
  log10 x := ⟨Functions.log10 x.val⟩
  sin x := ⟨Functions.sin x.val⟩
  tan x := ⟨Functions.tan x.val⟩
  asin x := ⟨Functions.asin x.val⟩
  pi := ⟨Functions.pi⟩
  infinity := ⟨Functions.infinity⟩
  isIntegral x := Int.fract x.val = 0
  floorNat x := ⌊x.val⌋.toNat
  fingerprint x := Functions.fingerprint x.val

namespace Exact

variable (x y : Exact K)

@[simp] theorem val_zero : (0 : Exact K).val = 0 := rfl
@[simp] theorem val_one : (1 : Exact K).val = 1 := rfl
@[simp] theorem val_add : (x + y).val = x.val + y.val := rfl
@[simp] theorem val_sub : (x - y).val = x.val - y.val := rfl
@[simp] theorem val_mul : (x * y).val = x.val * y.val := rfl
@[simp] theorem val_div : (x / y).val = x.val / y.val := rfl
@[simp] theorem val_neg : (-x).val = -x.val := rfl
@[simp] theorem val_abs : (Scalar.abs x).val = |x.val| := rfl
@[simp] theorem le_iff : x ≤ y ↔ x.val ≤ y.val := Iff.rfl
@[simp] theorem lt_iff : x < y ↔ x.val < y.val := Iff.rfl
@[simp] theorem beq_iff : x == y ↔ x.val = y.val := decide_eq_true_iff

@[simp] theorem val_two : (Scalar.two : Exact K).val = 2 := Nat.cast_ofNat

@[simp] theorem val_min : (Scalar.min x y).val = min x.val y.val := by
  have same : x == x := (beq_iff x x).mpr rfl
  unfold Scalar.min
  by_cases less : y.val < x.val
  · rw [if_pos ((lt_iff y x).mpr less), min_eq_right less.le]
  · rw [if_neg (mt (lt_iff y x).mp less), if_pos same, min_eq_left (not_lt.mp less)]

@[simp] theorem val_max : (Scalar.max x y).val = max x.val y.val := by
  have same : x == x := (beq_iff x x).mpr rfl
  unfold Scalar.max
  by_cases less : x.val < y.val
  · rw [if_pos ((lt_iff x y).mpr less), max_eq_right less.le]
  · rw [if_neg (mt (lt_iff x y).mp less), if_pos same, max_eq_left (not_lt.mp less)]

theorem isIntegral_iff [IsStrictOrderedRing K] : Scalar.isIntegral x ↔ ∃ n : ℤ, x.val = n := by
  have fraction : Scalar.isIntegral x ↔ Int.fract x.val = 0 := decide_eq_true_iff
  rw [fraction, Int.fract_eq_zero_iff, Set.mem_range]
  exact exists_congr fun n => eq_comm

variable {x y}

theorem min_eq_left (le : x.val ≤ y.val) : Scalar.min x y = x :=
  Exact.ext ((val_min x y).trans (inf_eq_left.mpr le))

theorem min_eq_right (le : y.val ≤ x.val) : Scalar.min x y = y :=
  Exact.ext ((val_min x y).trans (inf_eq_right.mpr le))

theorem max_eq_left (le : y.val ≤ x.val) : Scalar.max x y = x :=
  Exact.ext ((val_max x y).trans (sup_eq_left.mpr le))

theorem max_eq_right (le : x.val ≤ y.val) : Scalar.max x y = y :=
  Exact.ext ((val_max x y).trans (sup_eq_right.mpr le))

end Exact

/-- Rational numbers have powers to whole numbers. They have none of the other functions, which
arithmetic has no use for. -/
instance : Functions ℚ where
  pow x y := x ^ ⌊y⌋
  exp _ := 0
  log _ := 0
  log10 _ := 0
  sin _ := 0
  tan _ := 0
  asin _ := 0
  pi := 0
  infinity := 0
  fingerprint _ := 0

/-- Rational numbers are read exactly. -/
instance : Numeral (Exact ℚ) where
  ofDecimal digits places := ⟨digits / 10 ^ places⟩
  text x := toString x.val
  literalText x := toString x.val
  boundText x := toString x.val

/-- The functions of real numbers. -/
noncomputable instance : Functions ℝ where
  pow := Real.rpow
  exp := Real.exp
  log := Real.log
  log10 := Real.logb 10
  sin := Real.sin
  tan := Real.tan
  asin := Real.arcsin
  pi := Real.pi
  infinity := 0
  fingerprint _ := 0

end IntervalCalc
