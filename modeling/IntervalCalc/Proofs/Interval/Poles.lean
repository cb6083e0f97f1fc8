import IntervalCalc.Proofs.Interval.Arcs
import IntervalCalc.Proofs.Interval.Extended
import IntervalCalc.Proofs.Interval.Range

/-!
The tangent and the cotangent of an interval. They are the entire line exactly if a pole lies
inside, and otherwise the range of any function that rises like a tangent from pole to pole. The
poles are half a turn apart, while the ends of an interval are compared within one turn.
-/

namespace IntervalCalc

variable {K : Type} [Field K] [LinearOrder K] [FloorRing K] [Functions K]

/-- A function that repeats itself after half a turn, and rises between the poles around zero. -/
structure Functions.Tangential (K : Type) [Field K] [LinearOrder K] [Functions K] : Prop where
  positive : 0 < (pi : K)
  periodic : Function.Periodic (tan : K → K) pi
  rises : MonotoneOn (tan : K → K) (Set.Ioo (-(pi / 2)) (pi / 2))

/-- An odd multiple of a quarter of a turn. -/
def Functions.TanPole (x : K) : Prop :=
  ∃ k : ℤ, x = (2 * k + 1 : ℤ) * quarter K

/-- A multiple of half a turn. -/
def Functions.CotPole (x : K) : Prop :=
  ∃ k : ℤ, x = k * pi

/-- The numbers from one pole of the tangent to the next, without the first. -/
def Branch (K : Type) [Field K] [LinearOrder K] [Functions K] (m : ℤ) : Set K :=
  Set.Ioc ((2 * m - 1 : ℤ) * quarter K) ((2 * m + 1 : ℤ) * quarter K)

/-- The branch of a quadrant in the first turn. -/
def Quadrant.branch : Quadrant → ℤ
  | first => 0
  | second | third => 1
  | fourth => 2

section Order

variable [IsStrictOrderedRing K] (positive : 0 < quarter K) {m n : ℤ} {a b : K}

include positive

omit [FloorRing K] in
theorem multiple_le_iff : (m : K) * quarter K ≤ n * quarter K ↔ m ≤ n :=
  (mul_le_mul_iff_of_pos_right positive).trans Int.cast_le

omit [FloorRing K] in
theorem multiple_lt_iff : (m : K) * quarter K < n * quarter K ↔ m < n :=
  (mul_lt_mul_iff_of_pos_right positive).trans Int.cast_lt

omit [FloorRing K] in
/-- Some turns on, the angles of a quadrant are on one branch. -/
theorem Quadrant.Holds.branch {quadrant : Quadrant} (holds : quadrant.Holds a) (k : ℤ) :
    a + 4 * k * quarter K ∈ Branch K (2 * k + quadrant.branch) := by
  cases quadrant with
  | first | second | third | fourth =>
      obtain ⟨low, high⟩ := holds
      constructor
      · simp only [Quadrant.branch]
        push_cast
        linarith
      · simp only [Quadrant.branch]
        push_cast
        linarith

omit [FloorRing K] in
theorem branch_le (ha : a ∈ Branch K m) (hb : b ∈ Branch K n) (le : a ≤ b) : m ≤ n := by
  have less := (multiple_lt_iff positive).mp (ha.1.trans_le (le.trans hb.2))
  omega

omit [FloorRing K] in
/-- Between numbers on two branches there is a pole. -/
theorem exists_pole (ha : a ∈ Branch K m) (hb : b ∈ Branch K n) (less : m < n) :
    ∃ x ∈ Set.Icc a b, Functions.TanPole x := by
  have apart : 2 * m + 1 ≤ 2 * n - 1 := by omega
  have before := ((multiple_le_iff positive).mpr apart).trans hb.1.le
  exact ⟨_, ⟨ha.2, before⟩, m, rfl⟩

omit [FloorRing K] in
/-- Between numbers on one branch there is none but the upper number. -/
theorem eq_of_pole {x : K} (ha : a ∈ Branch K m) (hb : b ∈ Branch K m) (inside : x ∈ Set.Icc a b)
    (pole : Functions.TanPole x) : x = b := by
  obtain ⟨k, rfl⟩ := pole
  have low := (multiple_lt_iff positive).mp (ha.1.trans_le inside.1)
  have high := (multiple_le_iff positive).mp (inside.2.trans hb.2)
  obtain rfl : k = m := by omega
  exact le_antisymm inside.2 hb.2

end Order

/-- Whether an arc has no pole inside. -/
def Arc.unbroken {α : Type} (arc : Arc α) : Bool :=
  match arc.startQuadrant, arc.finishQuadrant with
  | .first, .first | .second, .second | .third, .third | .fourth, .fourth
  | .second, .third | .fourth, .first => true
  | _, _ => false

theorem Interval.tan_eq {α : Type} [Scalar α] (X : Interval α) :
    X.tan = match X.arc? with
      | none => entire
      | some arc =>
        if arc.unbroken then between (Scalar.tan arc.start) (Scalar.tan arc.finish)
        else entire := by
  unfold tan
  cases X.arc? with
  | none => rfl
  | some arc =>
      obtain ⟨start, finish, starts, finishes⟩ := arc
      cases starts <;> cases finishes <;> rfl

section Arcs

variable [IsStrictOrderedRing K] (positive : 0 < quarter K) {arc : Arc (Exact K)} {k : ℤ}
variable {X : Interval (Exact K)}

omit [FloorRing K] in
include positive in
/-- An arc that does not pass the beginning of the circle has no pole inside if its ends are on one
branch. -/
theorem Arc.unbroken_forward (start : arc.startQuadrant.Holds arc.start.val)
    (finish : arc.finishQuadrant.Holds arc.finish.val) (le : arc.start.val ≤ arc.finish.val) :
    arc.unbroken ↔ arc.startQuadrant.branch = arc.finishQuadrant.branch := by
  obtain ⟨s, t, starts, finishes⟩ := arc
  have same : ¬ (starts = .third ∧ finishes = .second) := by
    rintro ⟨rfl, rfl⟩
    exact absurd (start.1.trans_le (le.trans finish.2)) (lt_irrefl _)
  have round : ¬ (starts = .fourth ∧ finishes = .first) := by
    rintro ⟨rfl, rfl⟩
    linarith [start.1, le, finish.2]
  clear start finish le
  revert same round
  cases starts <;> cases finishes <;> simp [unbroken, Quadrant.branch]

omit [FloorRing K] [IsStrictOrderedRing K] in
/-- An arc that passes the beginning has no pole inside if its end is on the next turn's first
branch, where its start is. -/
theorem Arc.unbroken_passing (start : arc.startQuadrant.Holds arc.start.val)
    (finish : arc.finishQuadrant.Holds arc.finish.val) (less : arc.finish.val < arc.start.val)
    (other : arc.startQuadrant ≠ arc.finishQuadrant) :
    arc.unbroken ↔ arc.startQuadrant.branch = 2 + arc.finishQuadrant.branch := by
  obtain ⟨s, t, starts, finishes⟩ := arc
  have same : ¬ (starts = .second ∧ finishes = .third) := by
    rintro ⟨rfl, rfl⟩
    exact absurd (finish.1.trans (less.trans_le start.2)) (lt_irrefl _)
  clear start finish less
  revert same other
  cases starts <;> cases finishes <;> simp [unbroken, Quadrant.branch]

include positive

omit [FloorRing K] in
/-- The ends of an interval are on the branches of their quadrants, some turns on. -/
theorem Arc.Covers.ends_branch (covers : arc.Covers k X) :
    X.inf.val ∈ Branch K (2 * k + arc.startQuadrant.branch) ∧
      (arc.start.val ≤ arc.finish.val ∧
          X.sup.val ∈ Branch K (2 * k + arc.finishQuadrant.branch) ∨
        arc.finish.val < arc.start.val ∧
          X.sup.val ∈ Branch K (2 * (k + 1) + arc.finishQuadrant.branch)) := by
  have inf := covers.start.branch positive k
  rw [← covers.inf] at inf
  refine ⟨inf, ?_⟩
  rcases covers.sup with ⟨sup, le⟩ | ⟨sup, less⟩
  · rw [sup]
    exact .inl ⟨le, covers.finish.branch positive k⟩
  · have last := covers.finish.branch positive (k + 1)
    push_cast at last
    rw [← sup] at last
    exact .inr ⟨less, last⟩

omit [FloorRing K] in
/-- The arc of an interval has no pole inside if the ends are on one branch. -/
theorem Arc.Covers.branches (covers : arc.Covers k X)
    (forward : arc.startQuadrant = arc.finishQuadrant → arc.start.val ≤ arc.finish.val) :
    ∃ m n, X.inf.val ∈ Branch K m ∧ X.sup.val ∈ Branch K n ∧ (arc.unbroken ↔ m = n) := by
  obtain ⟨inf, ⟨le, sup⟩ | ⟨less, sup⟩⟩ := covers.ends_branch positive
  · refine ⟨_, _, inf, sup, ?_⟩
    rw [unbroken_forward positive covers.start covers.finish le]
    omega
  · have other : arc.startQuadrant ≠ arc.finishQuadrant := fun same =>
      absurd (forward same) (not_le.mpr less)
    refine ⟨_, _, inf, sup, ?_⟩
    rw [unbroken_passing covers.start covers.finish less other]
    omega

theorem exists_branch (x : Exact K) : ∃ m, x.val ∈ Branch K m := by
  obtain ⟨k, turned, low, high⟩ := Exact.turns_spec positive x
  rw [turned]
  exact ⟨_, (Quadrant.holds_ofAngle low high).branch positive k⟩

/-- An interval without an arc has its ends on two branches. -/
theorem Interval.branches_of_arc_none (le : X.inf.val ≤ X.sup.val) (none : X.arc? = none) :
    ∃ m n, X.inf.val ∈ Branch K m ∧ X.sup.val ∈ Branch K n ∧ m ≠ n := by
  rcases le_or_gt (4 * quarter K) (X.sup.val - X.inf.val) with wide | narrow
  · obtain ⟨m, inf⟩ := exists_branch positive X.inf
    obtain ⟨n, sup⟩ := exists_branch positive X.sup
    refine ⟨m, n, inf, sup, ?_⟩
    rintro rfl
    have low := inf.1
    have high := sup.2
    push_cast at low high
    linarith
  · obtain ⟨k, covers⟩ := ends_covers positive le narrow
    rw [arc?_of_narrow narrow] at none
    split at none
    next reversed =>
      obtain ⟨inf, ⟨ordered, _⟩ | ⟨_, sup⟩⟩ := covers.ends_branch positive
      · exact absurd ordered (not_le.mpr reversed.2)
      · refine ⟨_, _, inf, sup, ?_⟩
        rw [reversed.1]
        omega
    · cases none

end Arcs

namespace Functions.Tangential

variable (h : Tangential K)

include h

theorem tan_add_half_turns (k : ℤ) (x : K) : tan (x + 2 * k * quarter K) = tan x := by
  have turns : 2 * (k : K) * quarter K = k * pi := by
    rw [pi_eq]
    ring
  rw [turns]
  exact h.periodic.int_mul k x

variable [IsStrictOrderedRing K]

omit [FloorRing K] in
theorem quarter_pos : 0 < quarter K :=
  half_pos h.positive

/-- The function rises on every branch, up to the pole. -/
theorem rises_on (m : ℤ) :
    MonotoneOn (tan : K → K) (Branch K m \ {(2 * m + 1 : ℤ) * quarter K}) := by
  have back {x : K} (inside : x ∈ Branch K m \ {(2 * m + 1 : ℤ) * quarter K}) :
      x + 2 * (-m : ℤ) * quarter K ∈ Set.Ioo (-quarter K) (quarter K) := by
    have low := inside.1.1
    have high := inside.1.2.lt_of_ne inside.2
    push_cast at low high ⊢
    constructor
    · linarith
    · linarith
  intro x hx y hy le
  rw [← h.tan_add_half_turns (-m) x, ← h.tan_add_half_turns (-m) y]
  exact h.rises (back hx) (back hy) (add_le_add_left le _)

end Functions.Tangential

namespace Interval

variable [IsStrictOrderedRing K] {X : Interval (Exact K)} (h : Functions.Tangential K)

include h

omit [IsStrictOrderedRing K] in
theorem tan_turned {x y : Exact K} {k : ℤ} (turned : y.val = x.val + 4 * k * quarter K) :
    Scalar.tan x = Scalar.tan y := by
  have turns : 4 * (k : K) * quarter K = 2 * ((2 * k : ℤ) : K) * quarter K := by
    push_cast
    ring
  apply Exact.ext
  change Functions.tan x.val = Functions.tan y.val
  rw [turned, turns, h.tan_add_half_turns]

/-- The tangent of an interval is the entire line unless the ends are on one branch. -/
theorem tan_branches (le : X.inf.val ≤ X.sup.val) :
    ∃ m n, X.inf.val ∈ Branch K m ∧ X.sup.val ∈ Branch K n ∧ X.extended.tan =
      if m = n then (between (Scalar.tan X.inf) (Scalar.tan X.sup)).extended else entire := by
  rw [tan_eq, arc?_extended]
  cases found : X.arc? with
  | none =>
      obtain ⟨m, n, inf, sup, other⟩ := branches_of_arc_none h.quarter_pos le found
      exact ⟨m, n, inf, sup, (if_neg other).symm⟩
  | some arc =>
      obtain ⟨k, covers, forward⟩ := covers_of_arc_some h.quarter_pos le found
      obtain ⟨m, n, inf, sup, unbroken⟩ := covers.branches h.quarter_pos forward
      have start : Scalar.tan arc.start = Scalar.tan X.inf := tan_turned h covers.inf
      have finish : Scalar.tan arc.finish = Scalar.tan X.sup := by
        rcases covers.sup with ⟨sup, _⟩ | ⟨sup, _⟩
        · exact tan_turned h sup
        · refine tan_turned h (k := k + 1) ?_
          push_cast
          exact sup
      refine ⟨m, n, inf, sup, ?_⟩
      rw [← start, ← finish, ← between_finite]
      exact if_congr unbroken rfl rfl

/-- The ends of an interval on one branch bound the tangents of its numbers, unless the upper end is
a pole. -/
theorem tan_range {m : ℤ} (le : X.inf.val ≤ X.sup.val) (hinf : X.inf.val ∈ Branch K m)
    (hsup : X.sup.val ∈ Branch K m) (regular : ¬ Functions.TanPole X.sup.val) :
    between (Scalar.tan X.inf) (Scalar.tan X.sup) = ⟨Scalar.tan X.inf, Scalar.tan X.sup⟩ ∧
      IsRange Scalar.tan X ⟨Scalar.tan X.inf, Scalar.tan X.sup⟩ := by
  have inside {x : K} (member : x ∈ Set.Icc X.inf.val X.sup.val) :
      x ∈ Branch K m \ {(2 * m + 1 : ℤ) * quarter K} := by
    refine ⟨⟨hinf.1.trans_le member.1, member.2.trans hsup.2⟩, fun same => regular ⟨m, ?_⟩⟩
    exact le_antisymm hsup.2 (same ▸ member.2)
  have sweeps := Sweeps.rising ((h.rises_on m).mono fun _ => inside) le
  exact ⟨between_of_le sweeps.low_le_high, .of_sweeps (fun _ => rfl) sweeps⟩

/-- A pole inside of an interval gives the entire line, and otherwise the tangents of the bounds
are the bounds of the range. -/
theorem tan_cases (le : X.inf.val ≤ X.sup.val) (regular : ¬ Functions.TanPole X.sup.val) :
    (∃ x ∈ X, Functions.TanPole x.val) ∧ X.extended.tan = entire ∨
      (¬ ∃ x ∈ X, Functions.TanPole x.val) ∧
        X.extended.tan = (⟨Scalar.tan X.inf, Scalar.tan X.sup⟩ : Interval (Exact K)).extended ∧
        IsRange Scalar.tan X ⟨Scalar.tan X.inf, Scalar.tan X.sup⟩ := by
  obtain ⟨m, n, inf, sup, found⟩ := tan_branches h le
  by_cases one : m = n
  · subst one
    obtain ⟨ordered, range⟩ := tan_range h le inf sup regular
    refine .inr ⟨?_, ?_, range⟩
    · rintro ⟨x, inside, pole⟩
      rw [eq_of_pole h.quarter_pos inf sup (mem_iff.mp inside) pole] at pole
      exact regular pole
    · rw [found, if_pos rfl, ordered]
  · have less := (branch_le h.quarter_pos inf sup le).lt_of_ne one
    obtain ⟨x, inside, pole⟩ := exists_pole h.quarter_pos inf sup less
    exact .inl ⟨⟨⟨x⟩, mem_iff.mpr inside, pole⟩, found.trans (if_neg one)⟩

end Interval

/-- The negative of the tangent a quarter of a turn on. -/
def Exact.cot (x : Exact K) : Exact K :=
  -Scalar.tan (x + Scalar.halfPi)

theorem Functions.tanPole_add_quarter (x : K) :
    Functions.TanPole (x + quarter K) ↔ Functions.CotPole x := by
  have moved (k : ℤ) : x + quarter K = (2 * k + 1 : ℤ) * quarter K ↔ x = k * Functions.pi := by
    have half : (k : K) * Functions.pi = 2 * k * quarter K := by
      rw [Functions.pi_eq]
      ring
    push_cast
    rw [half, add_one_mul]
    exact add_left_inj _
  exact exists_congr moved

namespace Interval

variable {X : Interval (Exact K)}

theorem val_add_halfPi (x : Exact K) : (x + Scalar.halfPi).val = x.val + quarter K := by
  rw [Exact.val_add, Exact.val_halfPi]

/-- The cotangent of an interval is the negative of the tangent of the shifted one. -/
theorem cot_extended (X : Interval (Exact K)) :
    X.extended.cot = -(X + point Scalar.halfPi).extended.tan := by
  unfold cot
  rw [Extended.halfPi_eq, extended_add_point]

variable [IsStrictOrderedRing K] (h : Functions.Tangential K)

include h

theorem cot_cases (le : X.inf.val ≤ X.sup.val) (regular : ¬ Functions.CotPole X.sup.val) :
    (∃ x ∈ X, Functions.CotPole x.val) ∧ X.extended.cot = entire ∨
      (¬ ∃ x ∈ X, Functions.CotPole x.val) ∧
        X.extended.cot = (⟨X.sup.cot, X.inf.cot⟩ : Interval (Exact K)).extended ∧
        IsRange Exact.cot X ⟨X.sup.cot, X.inf.cot⟩ := by
  have bounds := add_point_eq le Scalar.halfPi
  have ordered : (X + point Scalar.halfPi).inf.val ≤ (X + point Scalar.halfPi).sup.val := by
    rw [bounds]
    exact add_le_add_left le _
  have pole (x : Exact K) :
      Functions.TanPole (x + Scalar.halfPi).val ↔ Functions.CotPole x.val := by
    rw [val_add_halfPi, Functions.tanPole_add_quarter]
  have regular' : ¬ Functions.TanPole (X + point Scalar.halfPi).sup.val := by
    rwa [bounds, pole]
  have cases := tan_cases h ordered regular'
  simp only [exists_mem_add_point le, pole] at cases
  rw [cot_extended]
  rcases cases with ⟨inside, found⟩ | ⟨none, found, range⟩
  · rw [found, neg_entire]
    exact .inl ⟨inside, rfl⟩
  · have turned := (range.shifted le Scalar.halfPi).neg
    rw [neg_eq range.le, bounds] at turned
    rw [found, extended_neg, neg_eq range.le, bounds]
    exact .inr ⟨none, rfl, turned⟩

omit [IsStrictOrderedRing K] h in
/-- What is either the entire line or has finite bounds is not both. -/
theorem entire_iff {T : Interval (Extended K)} {Y : Interval (Exact K)} {Pole Exact : Prop}
    (cases : Pole ∧ T = entire ∨ ¬ Pole ∧ T = Y.extended ∧ Exact) :
    (T = entire ↔ Pole) ∧ (¬ Pole → T = Y.extended ∧ Exact) := by
  rcases cases with ⟨inside, found⟩ | ⟨none, found, exact⟩
  · exact ⟨iff_of_true found inside, fun none => absurd inside none⟩
  · exact ⟨iff_of_false (found ▸ extended_ne_entire Y) none, fun _ => ⟨found, exact⟩⟩

/-- The tangent of an interval whose upper bound is no pole is the entire line exactly if there is a
pole inside, and otherwise the range with the tangents of the bounds. So is the cotangent, with the
bounds in reverse. -/
theorem tan_and_cot_poles (le : X.inf.val ≤ X.sup.val) :
    (¬ Functions.TanPole X.sup.val →
      (X.extended.tan = entire ↔ ∃ x ∈ X, Functions.TanPole x.val) ∧
      ((¬ ∃ x ∈ X, Functions.TanPole x.val) →
        X.extended.tan = (⟨Scalar.tan X.inf, Scalar.tan X.sup⟩ : Interval (Exact K)).extended ∧
        IsRange Scalar.tan X ⟨Scalar.tan X.inf, Scalar.tan X.sup⟩)) ∧
    (¬ Functions.CotPole X.sup.val →
      (X.extended.cot = entire ↔ ∃ x ∈ X, Functions.CotPole x.val) ∧
      ((¬ ∃ x ∈ X, Functions.CotPole x.val) →
        X.extended.cot = (⟨X.sup.cot, X.inf.cot⟩ : Interval (Exact K)).extended ∧
        IsRange Exact.cot X ⟨X.sup.cot, X.inf.cot⟩)) :=
  ⟨fun regular => entire_iff (tan_cases h le regular),
    fun regular => entire_iff (cot_cases h le regular)⟩

end Interval

theorem Functions.tangential_real : Functions.Tangential ℝ where
  positive := Real.pi_pos
  periodic := Real.tan_periodic
  rises := Real.strictMonoOn_tan.monotoneOn

theorem Functions.not_cotPole_real {x : ℝ} (low : 0 < x) (high : x ≤ 3) : ¬ CotPole x := by
  rintro ⟨k, rfl⟩
  have positive : 0 < k := by
    have factor := pos_of_mul_pos_left low Real.pi_pos.le
    exact_mod_cast factor
  have one : (1 : ℝ) ≤ k := by exact_mod_cast positive
  have beyond : Real.pi ≤ k * Real.pi := le_mul_of_one_le_left Real.pi_pos.le one
  exact absurd (beyond.trans high) (not_le.mpr Real.pi_gt_three)

/-- An interval with a pole of the tangent inside, and none of the cotangent. -/
theorem Interval.tan_and_cot_poles_above_one :
    let X : Interval (Exact ℝ) := ⟨⟨1⟩, ⟨2⟩⟩
    Functions.Tangential ℝ ∧ X.inf.val ≤ X.sup.val ∧
      ¬ Functions.TanPole X.sup.val ∧ X.extended.tan = entire ∧
      ¬ Functions.CotPole X.sup.val ∧
      X.extended.cot = (⟨X.sup.cot, X.inf.cot⟩ : Interval (Exact ℝ)).extended ∧
      IsRange Exact.cot X ⟨X.sup.cot, X.inf.cot⟩ := by
  intro X
  have above := Real.pi_gt_three
  have below := Real.pi_lt_four
  have le : X.inf.val ≤ X.sup.val := by norm_num [X]
  have regular : ¬ Functions.TanPole X.sup.val := by
    have quarter : X.sup.val = 2 - Real.pi / 2 + quarter ℝ := (sub_add_cancel _ _).symm
    rw [quarter, Functions.tanPole_add_quarter]
    exact Functions.not_cotPole_real (by linarith) (by linarith)
  have regular' : ¬ Functions.CotPole X.sup.val :=
    Functions.not_cotPole_real (by norm_num [X]) (by norm_num [X])
  have pole : ∃ x ∈ X, Functions.TanPole x.val := by
    refine ⟨⟨Real.pi / 2⟩, mem_iff.mpr ⟨?_, ?_⟩, 0, ?_⟩
    · change 1 ≤ Real.pi / 2
      linarith
    · change Real.pi / 2 ≤ 2
      linarith
    · norm_num
      rfl
  have none : ¬ ∃ x ∈ X, Functions.CotPole x.val := by
    rintro ⟨x, inside, multiple⟩
    obtain ⟨low, high⟩ := mem_iff.mp inside
    exact Functions.not_cotPole_real (by linarith) (by linarith) multiple
  obtain ⟨tan, cot⟩ := tan_and_cot_poles Functions.tangential_real le
  exact ⟨Functions.tangential_real, le, regular, (tan regular).1.mpr pole, regular',
    (cot regular').2 none⟩

end IntervalCalc
