import IntervalCalc.Interval.Trig
import IntervalCalc.Proofs.Interval.Enclosure

/-!
Arcs. Over exact numbers the ends of an interval are some turns beyond two angles of one turn, and
the quadrants of these angles bound them. An interval without an arc goes all the way round, or has
its ends in one quadrant the other way round.
-/

namespace IntervalCalc

variable {K : Type} [Field K] [LinearOrder K] [FloorRing K] [Functions K]

/-- A quarter of a turn. -/
def quarter (K : Type) [Field K] [Functions K] : K :=
  Functions.pi / 2

theorem Functions.pi_eq : (pi : K) = 2 * quarter K :=
  (mul_div_cancel₀ _ (two_ne_zero' K)).symm

namespace Exact

variable {x period : Exact K}

theorem val_pi : (Scalar.pi : Exact K).val = 2 * quarter K :=
  Functions.pi_eq

theorem val_halfPi : (Scalar.halfPi : Exact K).val = quarter K := by
  rw [Scalar.halfPi, val_div, val_two]
  rfl

theorem val_tau : (Scalar.tau : Exact K).val = 4 * quarter K := by
  rw [Scalar.tau, val_mul, val_two, val_pi]
  ring

theorem modulo_of_nonneg (sign : 0 ≤ (Scalar.rem x period).val) :
    (Scalar.modulo x period).val = (Scalar.rem x period).val := by
  rw [Scalar.modulo, if_neg (mt (lt_iff _ 0).mp (not_lt.mpr sign))]

theorem modulo_of_neg (sign : (Scalar.rem x period).val < 0) :
    (Scalar.modulo x period).val = (Scalar.rem x period).val + period.val := by
  rw [Scalar.modulo, if_pos ((lt_iff _ 0).mpr sign), val_add]

variable [IsStrictOrderedRing K]

/-- A number is a whole number of periods beyond its remainder, which is less than one. -/
theorem modulo_spec (positive : 0 < period.val) (x : Exact K) :
    ∃ k : ℤ, x.val = (Scalar.modulo x period).val + k * period.val ∧
      0 ≤ (Scalar.modulo x period).val ∧ (Scalar.modulo x period).val < period.val := by
  have quotient : x.val / period.val * period.val = x.val := div_mul_cancel₀ _ positive.ne'
  by_cases sign : 0 ≤ x.val / period.val
  · have rem : (Scalar.rem x period).val = x.val - period.val * ⌊x.val / period.val⌋ := by
      change x.val - period.val * ((if _ then _ else _ : ℤ) : K) = _
      rw [if_pos sign]
    have low := mul_le_mul_of_nonneg_right (Int.floor_le (x.val / period.val)) positive.le
    have high := mul_lt_mul_of_pos_right (Int.lt_floor_add_one (x.val / period.val)) positive
    rw [modulo_of_nonneg (by linarith), rem]
    refine ⟨⌊x.val / period.val⌋, ?_, ?_, ?_⟩
    · ring
    · linarith
    · linarith
  · have rem : (Scalar.rem x period).val = x.val - period.val * ⌈x.val / period.val⌉ := by
      change x.val - period.val * ((if _ then _ else _ : ℤ) : K) = _
      rw [if_neg sign]
    have low := mul_lt_mul_of_pos_right (Int.ceil_lt_add_one (x.val / period.val)) positive
    have high := mul_le_mul_of_nonneg_right (Int.le_ceil (x.val / period.val)) positive.le
    rcases lt_or_ge (Scalar.rem x period).val 0 with negative | zero
    · rw [modulo_of_neg negative]
      rw [rem] at negative ⊢
      refine ⟨⌈x.val / period.val⌉ - 1, ?_, ?_, ?_⟩
      · push_cast
        ring
      · linarith
      · linarith
    · rw [modulo_of_nonneg zero]
      rw [rem] at zero ⊢
      refine ⟨⌈x.val / period.val⌉, ?_, ?_, ?_⟩
      · ring
      · linarith
      · linarith

/-- A number is some turns beyond an angle of the first turn. -/
theorem turns_spec (positive : 0 < quarter K) (x : Exact K) :
    ∃ k : ℤ, x.val = (Scalar.modulo x Scalar.tau).val + 4 * k * quarter K ∧
      0 ≤ (Scalar.modulo x Scalar.tau).val ∧
      (Scalar.modulo x Scalar.tau).val < 4 * quarter K := by
  have turn : 0 < (Scalar.tau : Exact K).val := by
    rw [val_tau]
    exact mul_pos four_pos positive
  obtain ⟨k, turned, low, high⟩ := modulo_spec turn x
  have turns : (k : K) * (Scalar.tau : Exact K).val = 4 * k * quarter K := by
    rw [val_tau]
    ring
  rw [turns] at turned
  rw [val_tau] at high
  exact ⟨k, turned, low, high⟩

end Exact

/-- The angles of a quadrant. -/
def Quadrant.Holds (x : K) : Quadrant → Prop
  | first => 0 ≤ x ∧ x ≤ quarter K
  | second => quarter K < x ∧ x ≤ 2 * quarter K
  | third => 2 * quarter K < x ∧ x ≤ 3 * quarter K
  | fourth => 3 * quarter K < x ∧ x < 4 * quarter K

theorem Quadrant.holds_ofAngle {x : Exact K} (low : 0 ≤ x.val) (high : x.val < 4 * quarter K) :
    (ofAngle x).Holds x.val := by
  have third : (Scalar.pi + Scalar.halfPi : Exact K).val = 3 * quarter K := by
    rw [Exact.val_add, Exact.val_pi, Exact.val_halfPi]
    ring
  unfold ofAngle
  simp only [Exact.le_iff, Exact.val_halfPi, Exact.val_pi, third]
  split
  next le => exact ⟨low, le⟩
  next gt =>
    split
    next le => exact ⟨not_le.mp gt, le⟩
    next gt =>
      split
      next le => exact ⟨not_le.mp gt, le⟩
      next gt => exact ⟨not_le.mp gt, high⟩

/-- The two ends of an interval on the circle, the first of them some turns on. Between the ends the
interval has passed the beginning of the circle or not. -/
structure Arc.Covers (arc : Arc (Exact K)) (k : ℤ) (X : Interval (Exact K)) : Prop where
  start : arc.startQuadrant.Holds arc.start.val
  finish : arc.finishQuadrant.Holds arc.finish.val
  inf : X.inf.val = arc.start.val + 4 * k * quarter K
  sup : X.sup.val = arc.finish.val + 4 * k * quarter K ∧ arc.start.val ≤ arc.finish.val ∨
    X.sup.val = arc.finish.val + 4 * (k + 1) * quarter K ∧ arc.finish.val < arc.start.val

namespace Interval

variable {X : Interval (Exact K)}

/-- The arc between the ends of an interval, however often it goes round. -/
def ends (X : Interval (Exact K)) : Arc (Exact K) :=
  let start := Scalar.modulo X.inf Scalar.tau
  let finish := Scalar.modulo X.sup Scalar.tau
  ⟨start, finish, .ofAngle start, .ofAngle finish⟩

theorem arc?_of_wide (wide : 4 * quarter K ≤ X.sup.val - X.inf.val) : X.arc? = none := by
  rw [arc?, if_pos]
  rw [Exact.le_iff, Exact.val_tau]
  exact wide

theorem arc?_of_narrow (narrow : X.sup.val - X.inf.val < 4 * quarter K) :
    X.arc? = if X.ends.startQuadrant = X.ends.finishQuadrant ∧
      X.ends.finish.val < X.ends.start.val then none else some X.ends := by
  rw [arc?, if_neg]
  · rfl
  · rw [Exact.le_iff, Exact.val_tau]
    exact not_le.mpr narrow

end Interval

variable [IsStrictOrderedRing K]

theorem turns_between (positive : 0 < quarter K) {s t : K} {k l : ℤ} (hs : 0 ≤ s)
    (hs' : s < 4 * quarter K) (ht : 0 ≤ t) (ht' : t < 4 * quarter K)
    (le : s + 4 * k * quarter K ≤ t + 4 * l * quarter K)
    (narrow : t + 4 * l * quarter K - (s + 4 * k * quarter K) < 4 * quarter K) :
    l = k ∧ s ≤ t ∨ l = k + 1 ∧ t < s := by
  have spread {m n : ℤ} (less : m ≤ n) : 4 * m * quarter K ≤ 4 * n * quarter K := by
    have cast : (m : K) ≤ n := Int.cast_le.mpr less
    exact mul_le_mul_of_nonneg_right (mul_le_mul_of_nonneg_left cast four_pos.le) positive.le
  rcases lt_trichotomy l k with less | rfl | more
  · have far := spread (Int.add_one_le_iff.mpr less)
    push_cast at far
    linarith
  · exact .inl ⟨rfl, by linarith⟩
  · rcases (Int.add_one_le_iff.mpr more).lt_or_eq with further | rfl
    · have far := spread (Int.add_one_le_iff.mpr further)
      push_cast at far
      linarith
    · push_cast at le narrow
      exact .inr ⟨rfl, by linarith⟩

namespace Interval

variable {X : Interval (Exact K)}

theorem ends_covers (positive : 0 < quarter K) (le : X.inf.val ≤ X.sup.val)
    (narrow : X.sup.val - X.inf.val < 4 * quarter K) : ∃ k, X.ends.Covers k X := by
  obtain ⟨k, inf, low, high⟩ := Exact.turns_spec positive X.inf
  obtain ⟨l, sup, low', high'⟩ := Exact.turns_spec positive X.sup
  refine ⟨k, Quadrant.holds_ofAngle low high, Quadrant.holds_ofAngle low' high', inf, ?_⟩
  rw [inf, sup] at le narrow
  rcases turns_between positive low high low' high' le narrow with ⟨rfl, ordered⟩ | ⟨rfl, passed⟩
  · exact .inl ⟨sup, ordered⟩
  · push_cast at sup
    exact .inr ⟨sup, passed⟩

/-- An arc covers its interval, and goes forward if it stays in one quadrant. -/
theorem covers_of_arc_some (positive : 0 < quarter K) (le : X.inf.val ≤ X.sup.val)
    {arc : Arc (Exact K)} (found : X.arc? = some arc) : ∃ k, arc.Covers k X ∧
      (arc.startQuadrant = arc.finishQuadrant → arc.start.val ≤ arc.finish.val) := by
  rcases le_or_gt (4 * quarter K) (X.sup.val - X.inf.val) with wide | narrow
  · rw [arc?_of_wide wide] at found
    cases found
  · obtain ⟨k, covers⟩ := ends_covers positive le narrow
    rw [arc?_of_narrow narrow] at found
    split at found
    · cases found
    next ordered =>
      cases found
      exact ⟨k, covers, fun same => not_lt.mp fun reversed => ordered ⟨same, reversed⟩⟩

end Interval

end IntervalCalc
