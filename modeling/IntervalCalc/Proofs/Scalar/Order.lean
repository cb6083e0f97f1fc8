import IntervalCalc.Scalar.Float

/-!
The order of binary64 numbers. It is what the comparison of their fields says, and all but the
undefined ones compare.
-/

namespace IntervalCalc

namespace Binary64

open Float.Model (UnpackedFloat)

theorem compare_magnitude_swap (m n : Nat) (d e : Int) :
    ((compare d e).then (compare m n)).swap = (compare e d).then (compare n m) := by
  rw [Ordering.swap_then, ← Std.OrientedCmp.eq_swap, ← Std.OrientedCmp.eq_swap]

/-- Turned round, a comparison has the opposite outcome, or none again. -/
theorem compare_swap (x y : UnpackedFloat) : (x.compare y).map Ordering.swap = y.compare x := by
  cases x with
  | notANumber => cases y <;> rfl
  | zero s =>
      cases y with
      | notANumber | zero => rfl
      | infinity t | finite t => cases t <;> rfl
  | infinity s =>
      cases y with
      | notANumber => rfl
      | zero | finite => cases s <;> rfl
      | infinity t => cases s <;> cases t <;> rfl
  | finite s m d =>
      cases y with
      | notANumber => rfl
      | zero => cases s <;> rfl
      | infinity t => cases t <;> cases s <;> rfl
      | finite t n e =>
          have magnitudes := compare_magnitude_swap m n d e
          cases s <;> cases t
          · exact congrArg some (congrArg Ordering.swap magnitudes)
          · rfl
          · rfl
          · exact congrArg some magnitudes

/-- Only undefined numbers do not compare. -/
theorem isSome_compare (x y : UnpackedFloat) : (x.compare y).isSome ↔ ¬ x.isNaN ∧ ¬ y.isNaN := by
  have same : (x.compare y).isSome = (!x.isNaN && !y.isNaN) := by
    cases x with
    | notANumber => cases y <;> rfl
    | zero s | infinity s | finite s =>
        cases y with
        | notANumber => rfl
        | zero t | infinity t | finite t => cases s <;> cases t <;> rfl
  rw [same, Bool.and_eq_true, Bool.not_eq_true', Bool.not_eq_true', Bool.not_eq_true,
    Bool.not_eq_true]

theorem le_iff (x y : Float) :
    x ≤ y ↔ (x.toModel.unpack.compare y.toModel.unpack).any Ordering.isLE := by
  change decide _ = true ↔ _
  rw [decide_eq_true_iff]
  rfl

theorem lt_iff (x y : Float) :
    x < y ↔ x.toModel.unpack.compare y.toModel.unpack = some .lt := by
  change decide _ = true ↔ _
  rw [decide_eq_true_iff]
  exact beq_iff_eq

theorem not_isNaN_of_le {x y : Float} (le : x ≤ y) : ¬ x.isNaN ∧ ¬ y.isNaN := by
  rw [le_iff] at le
  refine (isSome_compare x.toModel.unpack y.toModel.unpack).mp ?_
  cases compared : x.toModel.unpack.compare y.toModel.unpack with
  | none => rw [compared] at le; cases le
  | some order => rfl

theorem le_of_not_le {x y : Float} (hx : ¬ x.isNaN) (hy : ¬ y.isNaN) (h : ¬ x ≤ y) : y ≤ x := by
  have compares := (isSome_compare x.toModel.unpack y.toModel.unpack).mpr ⟨hx, hy⟩
  rw [le_iff] at h
  rw [le_iff, ← compare_swap]
  cases compared : x.toModel.unpack.compare y.toModel.unpack with
  | none => rw [compared] at compares; cases compares
  | some order =>
      rw [compared] at h
      cases order with
      | lt => exact absurd rfl h
      | eq => exact absurd rfl h
      | gt => rfl

theorem unpack_one :
    (1 : Float).toModel.unpack = .finite .positive (2 ^ 52) (-52) (Nat.two_pow_pos 52) := by
  rfl

theorem zero_le_of_one_lt {x : Float} (more : 1 < x) : 0 ≤ x := by
  rw [lt_iff, unpack_one] at more
  rw [le_iff]
  have zero : (0 : Float).toModel.unpack = .zero .positive := rfl
  rw [zero]
  cases unpacked : x.toModel.unpack with
  | notANumber | zero => rw [unpacked] at more; cases more
  | infinity sign | finite sign =>
      rw [unpacked] at more
      cases sign with
      | negative => cases more
      | positive => rfl

end Binary64

end IntervalCalc
