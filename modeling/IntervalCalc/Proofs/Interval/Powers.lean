import IntervalCalc.Proofs.Interval.Arithmetic

/-!
The ranges of powers. Over exact numbers a power of an interval is the range of the power, and it
fails only where the power of a number in the interval does: where zero has a negative power, or a
negative number a power that is no whole number.
-/

namespace IntervalCalc

/-- A power that rises on the nonnegative numbers, from zero at zero. -/
structure Functions.Rising {K : Type} [Field K] [LinearOrder K] [Functions K] (power : K) :
    Prop where
  rises : MonotoneOn (fun x : K => pow x power) (Set.Ici 0)
  zero : pow (0 : K) power = 0
  positive : ∀ x : K, 0 < x → 0 < pow x power

/-- Positive powers that are no whole numbers rise. -/
def Functions.RealPowers (K : Type) [Field K] [LinearOrder K] [Functions K] : Prop :=
  ∀ power : K, 0 < power → (∀ n : ℤ, power ≠ n) → Rising power

variable {K : Type} [Field K] [LinearOrder K] [FloorRing K] [Functions K]

namespace Exact

/-- The power of a number to a whole number. -/
def zpow (x : Exact K) (n : ℤ) : Exact K :=
  ⟨x.val ^ n⟩

/-- The power of a number to any other exponent. If that is negative, it is the reciprocal of the
opposite power. -/
def power (x p : Exact K) : Exact K :=
  if p.val < 0 then 1 / Scalar.pow x (-p) else Scalar.pow x p

end Exact

namespace Interval

variable {X Y Z : Interval (Exact K)} {f : Exact K → Exact K} {g : K → K}

namespace IsRange

section Bounds

variable (same : ∀ x, (f x).val = g x.val) (le : X.inf.val ≤ X.sup.val)

include same le

theorem rising (monotone : MonotoneOn g (Set.Icc X.inf.val X.sup.val)) :
    IsRange f X (Interval.between (f X.inf) (f X.sup)) := by
  refine .between same ?_
  rw [same, same]
  exact .rising monotone le

theorem falling (antitone : AntitoneOn g (Set.Icc X.inf.val X.sup.val)) :
    IsRange f X (Interval.between (f X.sup) (f X.inf)) := by
  refine .between same ?_
  rw [same, same]
  exact .falling antitone le

end Bounds

/-- The reciprocals of values that are not zero. -/
theorem recip [IsStrictOrderedRing K] (h : IsRange f X Y) (nonzero : 0 ∉ Y) :
    IsRange (fun x => 1 / f x) X ⟨1 / Y.sup, 1 / Y.inf⟩ := by
  have found := recip_of_not_mem h.le nonzero
  obtain ⟨low, inside, least⟩ := h.low
  obtain ⟨high, inside', greatest⟩ := h.high
  refine ⟨fun x member => (recip_mem found (h.encloses x member)).2, ?_, ?_⟩
  · exact ⟨high, inside', congrArg (1 / ·) greatest⟩
  · exact ⟨low, inside, congrArg (1 / ·) least⟩

end IsRange

theorem pow_of_pos {p : Exact K} (positive : 0 < p.val) : X.pow p = X.positivePow p := by
  unfold pow
  rw [if_neg, if_neg]
  · exact mt (Exact.lt_iff p 0).mp (not_lt.mpr positive.le)
  · exact mt (Exact.beq_iff p 0).mp positive.ne'

theorem pow_of_neg {p : Exact K} (negative : p.val < 0) :
    X.pow p = X.positivePow (-p) >>= recip := by
  unfold pow
  rw [if_neg, if_pos ((Exact.lt_iff p 0).mpr negative)]
  exact mt (Exact.beq_iff p 0).mp negative.ne

theorem pow_of_zero : X.pow 0 = .ok one :=
  if_pos ((Exact.beq_iff (0 : Exact K) 0).mpr rfl)

variable [IsStrictOrderedRing K]

omit [FloorRing K] [Functions K] in
/-- An even power falls to zero and rises behind it. -/
theorem sweeps_even_pow {a b : K} {n : ℕ} (even : Even n) (positive : n ≠ 0) (low : a ≤ 0)
    (high : 0 ≤ b) : Sweeps (· ^ n) a b 0 (max |a| |b| ^ n) := by
  have fall : Sweeps (· ^ n) a 0 (0 ^ n) (a ^ n) :=
    .falling (fun x _ y inside le => pow_le_pow_of_nonpos even le inside.2) low
  have rise : Sweeps (· ^ n) 0 b (0 ^ n) (b ^ n) :=
    .rising (fun x inside y _ le => pow_le_pow_of_le (.inl inside.1) le) high
  have greatest : max (a ^ n) (b ^ n) = max |a| |b| ^ n := by
    rw [← even.pow_abs a, ← even.pow_abs b]
    rcases le_total |a| |b| with le | ge
    · rw [max_eq_right le, max_eq_right (pow_le_pow_left₀ (abs_nonneg a) le n)]
    · rw [max_eq_left ge, max_eq_left (pow_le_pow_left₀ (abs_nonneg b) ge n)]
  have both := fall.trans rise
  rw [zero_pow positive, min_self, greatest] at both
  exact both

section Whole

variable (powers : Functions.WholePowers K)

include powers

omit [IsStrictOrderedRing K] in
theorem pow_eq_zpow (x : Exact K) (n : ℕ) : Scalar.pow x ⟨(n : ℤ)⟩ = x.zpow n :=
  Exact.ext ((val_pow powers x n).trans (zpow_natCast x.val n).symm)

theorem positivePow_range (le : X.inf.val ≤ X.sup.val) {n : ℕ} (positive : n ≠ 0) :
    ∃ Z, X.positivePow ⟨(n : ℤ)⟩ = .ok Z ∧ IsRange (·.zpow n) X Z := by
  have same (x : Exact K) : (x.zpow n).val = x.val ^ n := zpow_natCast x.val n
  have whole := isIntegral_intCast (K := K) n
  unfold positivePow
  simp only [pow_eq_zpow powers, whole, if_true]
  split
  next above =>
    have sign : 0 ≤ X.inf.val := ((Exact.lt_iff 0 X.inf).mp above).le
    refine ⟨_, rfl, .rising same le fun x inside y _ less => ?_⟩
    exact pow_le_pow_of_le (.inl (sign.trans inside.1)) less
  next notAbove =>
    have low : X.inf.val ≤ 0 := not_lt.mp (mt (Exact.lt_iff 0 X.inf).mpr notAbove)
    split
    next below =>
      have sign : X.sup.val ≤ 0 := ((Exact.lt_iff X.sup 0).mp below).le
      rcases Nat.even_or_odd n with even | odd
      · refine ⟨_, rfl, .falling same le fun x _ y inside less => ?_⟩
        exact pow_le_pow_of_nonpos even less (inside.2.trans sign)
      · rw [between_comm]
        exact ⟨_, rfl, .rising same le fun x _ y _ less => pow_le_pow_of_le (.inr odd) less⟩
    next notBelow =>
      have high : 0 ≤ X.sup.val := not_lt.mp (mt (Exact.lt_iff X.sup 0).mpr notBelow)
      split
      next folds =>
        have even : Even n := (Int.even_coe_nat n).mp ((isEven_intCast _).mp folds)
        have sweeps := sweeps_even_pow even positive low high
        have greatest : (X.magnitude.zpow n).val = max |X.inf.val| |X.sup.val| ^ n := by
          rw [same, magnitude, Exact.val_max, Exact.val_abs, Exact.val_abs]
        rw [← greatest] at sweeps
        exact ⟨_, rfl, .between same sweeps⟩
      next keeps =>
        have odd : Odd n := Nat.not_even_iff_odd.mp fun even =>
          keeps ((isEven_intCast _).mpr ((Int.even_coe_nat n).mpr even))
        exact ⟨_, rfl, .rising same le fun x _ y _ less => pow_le_pow_of_le (.inr odd) less⟩

end Whole

/-- A power to a positive whole number is zero where the base is. -/
theorem zero_mem_zpow_iff {n : ℕ} (positive : n ≠ 0) (h : IsRange (·.zpow n) X Y) :
    0 ∈ Y ↔ 0 ∈ X := by
  have value (x : Exact K) : (x.zpow n).val = x.val ^ n := zpow_natCast x.val n
  constructor
  · intro zero
    by_contra nonzero
    obtain ⟨below, above⟩ := mem_iff.mp zero
    obtain ⟨x, inside, least⟩ := h.low
    obtain ⟨y, inside', greatest⟩ := h.high
    rw [← least, value, Exact.val_zero] at below
    rw [← greatest, value, Exact.val_zero] at above
    rcases apart_of_not_mem nonzero with right | left
    · have sign : 0 < x.val := right.trans_le (mem_iff.mp inside).1
      exact absurd below (not_le.mpr (pow_pos sign n))
    · have sign : x.val < 0 := (mem_iff.mp inside).2.trans_lt left
      have sign' : y.val < 0 := (mem_iff.mp inside').2.trans_lt left
      rcases Nat.even_or_odd n with even | odd
      · exact absurd below (not_le.mpr (even.pow_pos sign.ne))
      · exact absurd above (not_le.mpr (odd.pow_neg sign'))
  · intro zero
    have image := h.encloses 0 zero
    have same : (0 : Exact K).zpow n = 0 := Exact.ext ((value 0).trans (zero_pow positive))
    rwa [same] at image

section Reciprocal

variable {p : Exact K} (negative : p.val < 0) (raised : X.positivePow (-p) = .ok Y)

include negative raised

omit [IsStrictOrderedRing K] in
theorem pow_of_zero_mem (zero : 0 ∈ Y) : X.pow p = .error (.containsZero Y) := by
  rw [pow_of_neg negative, raised]
  exact recip_of_mem zero

/-- A negative power is the range of the reciprocals, unless a number has the opposite power
zero. -/
theorem pow_of_zero_not_mem (h : IsRange f X Y) (nonzero : 0 ∉ Y) :
    ∃ Z, X.pow p = .ok Z ∧ IsRange (fun x => 1 / f x) X Z := by
  rw [pow_of_neg negative, raised]
  exact ⟨_, recip_of_not_mem h.le nonzero, h.recip nonzero⟩

end Reciprocal

section Whole

variable (powers : Functions.WholePowers K) (le : X.inf.val ≤ X.sup.val)

include powers le

/-- To a negative whole number there is the range of the opposite power. -/
theorem opposite_pow_range {n : ℤ} (negative : n < 0) :
    ∃ Y, X.positivePow (-⟨n⟩) = .ok Y ∧ IsRange (·.zpow (-n)) X Y ∧ (0 ∈ Y ↔ 0 ∈ X) := by
  obtain ⟨m, rfl⟩ : ∃ m : ℕ, n = -(m : ℤ) := ⟨n.natAbs, by omega⟩
  have positive : m ≠ 0 := by omega
  have opposite : -(⟨((-(m : ℤ) : ℤ) : K)⟩ : Exact K) = ⟨((m : ℤ) : K)⟩ := by
    apply Exact.ext
    rw [Exact.val_neg, Int.cast_neg, neg_neg]
  obtain ⟨Y, raised, range⟩ := positivePow_range powers le positive
  rw [opposite, neg_neg]
  exact ⟨Y, raised, range, zero_mem_zpow_iff positive range⟩

theorem pow_fails {n : ℤ} (negative : n < 0) (zero : 0 ∈ X) :
    ∃ divisor, X.pow ⟨n⟩ = .error (.containsZero divisor) := by
  obtain ⟨Y, raised, _, meets⟩ := opposite_pow_range powers le negative
  exact ⟨Y, pow_of_zero_mem (Int.cast_lt_zero.mpr negative) raised (meets.mpr zero)⟩

theorem pow_range {n : ℤ} (defined : ¬ (n < 0 ∧ 0 ∈ X)) :
    ∃ Z, X.pow ⟨n⟩ = .ok Z ∧ IsRange (·.zpow n) X Z := by
  rcases lt_trichotomy n 0 with negative | rfl | positive
  · obtain ⟨Y, raised, range, meets⟩ := opposite_pow_range powers le negative
    have nonzero : 0 ∉ Y := fun zero => defined ⟨negative, meets.mp zero⟩
    have inverse (x : Exact K) : 1 / x.zpow (-n) = x.zpow n := by
      apply Exact.ext
      change 1 / x.val ^ (-n) = x.val ^ n
      rw [one_div, zpow_neg, inv_inv]
    have found := pow_of_zero_not_mem (Int.cast_lt_zero.mpr negative) raised range nonzero
    simpa only [inverse] using found
  · have zero : (⟨((0 : ℤ) : K)⟩ : Exact K) = 0 := Exact.ext Int.cast_zero
    have value (x : Exact K) : x.zpow 0 = 1 := Exact.ext (zpow_zero x.val)
    rw [zero]
    refine ⟨one, pow_of_zero, fun x _ => ?_, ?_, ?_⟩
    · rw [value]
      exact mem_point 1
    · exact ⟨X.inf, inf_mem le, value X.inf⟩
    · exact ⟨X.inf, inf_mem le, value X.inf⟩
  · obtain ⟨m, rfl⟩ := Int.eq_ofNat_of_zero_le positive.le
    rw [pow_of_pos (Int.cast_pos.mpr positive)]
    exact positivePow_range powers le (by omega)

end Whole

section Real

variable {p : Exact K} (fraction : ∀ n : ℤ, p.val ≠ n)

include fraction

theorem not_isIntegral : ¬ Scalar.isIntegral p := by
  rw [Exact.isIntegral_iff]
  exact fun ⟨n, whole⟩ => fraction n whole

theorem not_isEven : ¬ Scalar.isEven p := by
  rw [Scalar.isEven, Bool.and_eq_true]
  exact fun whole => not_isIntegral fraction whole.1

theorem positivePow_of_neg (negative : X.inf.val < 0) :
    X.positivePow p = .error (.nonRealPower X p) := by
  unfold positivePow
  rw [if_neg (mt (Exact.lt_iff 0 X.inf).mp negative.not_gt), if_neg (not_isIntegral fraction),
    if_neg (not_isEven fraction), if_neg (not_isIntegral fraction),
    if_neg (mt (Exact.beq_iff X.inf 0).mp negative.ne), ite_self]

theorem positivePow_of_nonneg (rising : Functions.Rising p.val) (le : X.inf.val ≤ X.sup.val)
    (nonnegative : 0 ≤ X.inf.val) :
    X.positivePow p = .ok (between (Scalar.pow X.inf p) (Scalar.pow X.sup p)) := by
  unfold positivePow
  rcases nonnegative.lt_or_eq with positive | zero
  · rw [if_pos ((Exact.lt_iff 0 X.inf).mpr positive)]
  · have bound : Scalar.pow X.inf p = 0 := by
      apply Exact.ext
      change Functions.pow X.inf.val p.val = 0
      rw [← zero, rising.zero]
    rw [if_neg (mt (Exact.lt_iff 0 X.inf).mp zero.not_lt), if_neg, if_neg (not_isEven fraction),
      if_neg (not_isIntegral fraction), if_pos ((Exact.beq_iff X.inf 0).mpr zero.symm), bound]
    exact mt (Exact.lt_iff X.sup 0).mp (not_lt.mpr (nonnegative.trans le))

/-- A rising power is the range of the powers, and zero exactly at zero. -/
theorem positivePow_real_range (rising : Functions.Rising p.val) (le : X.inf.val ≤ X.sup.val)
    (nonnegative : 0 ≤ X.inf.val) :
    ∃ Y, X.positivePow p = .ok Y ∧ IsRange (Scalar.pow · p) X Y ∧ (0 ∈ Y ↔ X.inf.val = 0) := by
  have rises : MonotoneOn (fun x => Functions.pow x p.val) (Set.Icc X.inf.val X.sup.val) :=
    rising.rises.mono fun x inside => nonnegative.trans inside.1
  have sweeps := Sweeps.rising rises le
  have bounds : between (Scalar.pow X.inf p) (Scalar.pow X.sup p) =
      ⟨Scalar.pow X.inf p, Scalar.pow X.sup p⟩ := between_of_le sweeps.low_le_high
  rw [positivePow_of_nonneg fraction rising le nonnegative, bounds]
  refine ⟨_, rfl, .of_sweeps (fun _ => rfl) sweeps, ?_⟩
  rw [mem_iff]
  constructor
  · intro zero
    by_contra other
    have positive := rising.positive X.inf.val (nonnegative.lt_of_ne' other)
    exact absurd zero.1 (not_le.mpr positive)
  · intro zero
    have bound : Functions.pow X.inf.val p.val = 0 := zero ▸ rising.zero
    have above : 0 ≤ Functions.pow X.sup.val p.val := bound ▸ sweeps.low_le_high
    exact ⟨bound.le, above⟩

omit [IsStrictOrderedRing K] in
theorem fraction_neg (n : ℤ) : (-p).val ≠ n := by
  intro whole
  refine fraction (-n) ?_
  rw [Int.cast_neg, ← whole, Exact.val_neg, neg_neg]

theorem pow_real_fails (negative : X.inf.val < 0) :
    ∃ power, X.pow p = .error (.nonRealPower X power) := by
  rcases lt_trichotomy p.val 0 with below | zero | above
  · refine ⟨-p, ?_⟩
    rw [pow_of_neg below, positivePow_of_neg (fraction_neg fraction) negative]
    rfl
  · exact absurd (zero.trans Int.cast_zero.symm) (fraction 0)
  · exact ⟨p, (pow_of_pos above).trans (positivePow_of_neg fraction negative)⟩

section Nonnegative

variable (real : Functions.RealPowers K) (le : X.inf.val ≤ X.sup.val)
variable (nonnegative : 0 ≤ X.inf.val)

include real le nonnegative

/-- To a negative exponent there is the range of the opposite power. -/
theorem opposite_real_range (negative : p.val < 0) :
    ∃ Y, X.positivePow (-p) = .ok Y ∧ IsRange (Scalar.pow · (-p)) X Y ∧
      (0 ∈ Y ↔ X.inf.val = 0) := by
  have rising := real (-p).val (neg_pos.mpr negative) (fraction_neg fraction)
  exact positivePow_real_range (fraction_neg fraction) rising le nonnegative

theorem pow_real_of_zero (negative : p.val < 0) (zero : X.inf.val = 0) :
    ∃ divisor, X.pow p = .error (.containsZero divisor) := by
  obtain ⟨Y, raised, _, meets⟩ := opposite_real_range fraction real le nonnegative negative
  exact ⟨Y, pow_of_zero_mem negative raised (meets.mpr zero)⟩

theorem pow_real_range (defined : ¬ (p.val < 0 ∧ X.inf.val = 0)) :
    ∃ Z, X.pow p = .ok Z ∧ IsRange (·.power p) X Z := by
  rcases lt_trichotomy p.val 0 with below | zero | above
  · obtain ⟨Y, raised, range, meets⟩ := opposite_real_range fraction real le nonnegative below
    have nonzero : 0 ∉ Y := fun zero => defined ⟨below, meets.mp zero⟩
    have value (x : Exact K) : x.power p = 1 / Scalar.pow x (-p) := if_pos below
    simpa only [value] using pow_of_zero_not_mem below raised range nonzero
  · exact absurd (zero.trans Int.cast_zero.symm) (fraction 0)
  · obtain ⟨Y, raised, range, _⟩ :=
      positivePow_real_range fraction (real p.val above fraction) le nonnegative
    have value (x : Exact K) : x.power p = Scalar.pow x p := if_neg above.not_gt
    rw [pow_of_pos above]
    simp only [value]
    exact ⟨Y, raised, range⟩

end Nonnegative

end Real

theorem wholePowers_real : Functions.WholePowers ℝ :=
  fun x n _ => Real.rpow_intCast x n

theorem realPowers_real : Functions.RealPowers ℝ := fun _ exponent _ => {
  rises := fun _ low _ _ le => Real.rpow_le_rpow low le exponent.le
  zero := Real.zero_rpow exponent.ne'
  positive := fun _ base => Real.rpow_pos_of_pos base _ }

section All

variable (powers : Functions.WholePowers K) (real : Functions.RealPowers K)
variable (le : X.inf.val ≤ X.sup.val)

include powers real le

/-- A whole power fails exactly if the exponent is negative and zero in the interval, and otherwise
it is the range of the power. Any other power fails exactly if the interval has a negative number,
or if the exponent is negative and zero the lower bound, and otherwise it is the range too. -/
theorem pow_exact :
    (∀ n : ℤ,
      ((∃ divisor, X.pow ⟨n⟩ = .error (.containsZero divisor)) ↔ n < 0 ∧ 0 ∈ X) ∧
      (¬ (n < 0 ∧ 0 ∈ X) → ∃ Z, X.pow ⟨n⟩ = .ok Z ∧ IsRange (·.zpow n) X Z)) ∧
    ∀ p : Exact K, (∀ n : ℤ, p.val ≠ n) →
      ((∃ power, X.pow p = .error (.nonRealPower X power)) ↔ ∃ x ∈ X, x.val < 0) ∧
      ((∃ divisor, X.pow p = .error (.containsZero divisor)) ↔ p.val < 0 ∧ X.inf.val = 0) ∧
      ((¬ ∃ x ∈ X, x.val < 0) → ¬ (p.val < 0 ∧ X.inf.val = 0) →
        ∃ Z, X.pow p = .ok Z ∧ IsRange (·.power p) X Z) := by
  refine ⟨fun n => ?whole, fun p fraction => ?other⟩
  case whole =>
    refine ⟨⟨fun ⟨divisor, failed⟩ => ?_, fun ⟨negative, zero⟩ => ?_⟩, pow_range powers le⟩
    · by_contra defined
      obtain ⟨Z, found, _⟩ := pow_range powers le defined
      rw [failed] at found
      cases found
    · exact pow_fails powers le negative zero
  case other =>
    have signed : (∃ x ∈ X, x.val < 0) ↔ X.inf.val < 0 := by
      constructor
      · exact fun ⟨x, inside, negative⟩ => (mem_iff.mp inside).1.trans_lt negative
      · exact fun negative => ⟨X.inf, inf_mem le, negative⟩
    rw [signed, not_lt]
    rcases lt_or_ge X.inf.val 0 with negative | nonnegative
    · obtain ⟨power, failed⟩ := pow_real_fails fraction negative
      simp [failed, negative, negative.ne, negative.not_ge]
    · by_cases pole : p.val < 0 ∧ X.inf.val = 0
      · obtain ⟨divisor, failed⟩ := pow_real_of_zero fraction real le nonnegative pole.1 pole.2
        simp [failed, pole]
      · obtain ⟨Z, found, range⟩ := pow_real_range fraction real le nonnegative pole
        simp [found, pole, nonnegative, range]

end All

/-- An interval with zero inside has a square, but neither its reciprocal nor a square root. -/
theorem pow_exact_around_zero :
    let X : Interval (Exact ℝ) := ⟨⟨-2⟩, ⟨3⟩⟩
    (∃ divisor, X.pow ⟨(-2 : ℤ)⟩ = .error (.containsZero divisor)) ∧
      (∃ Z, X.pow ⟨(2 : ℤ)⟩ = .ok Z ∧ IsRange (·.zpow 2) X Z) ∧
      ∃ power, X.pow ⟨1 / 2⟩ = .error (.nonRealPower X power) := by
  intro X
  have le : X.inf.val ≤ X.sup.val := by norm_num [X]
  have zero : 0 ∈ X := by
    rw [mem_iff]
    norm_num [X]
  have fraction : ∀ n : ℤ, (⟨1 / 2⟩ : Exact ℝ).val ≠ n := by
    intro n half
    have double : ((2 * n : ℤ) : ℝ) = (1 : ℤ) := by
      rw [Int.cast_mul, ← half]
      norm_num
    have := Int.cast_injective double
    omega
  obtain ⟨whole, other⟩ := pow_exact wholePowers_real realPowers_real le
  refine ⟨(whole (-2)).1.mpr ⟨by decide, zero⟩, (whole 2).2 ?_, (other ⟨1 / 2⟩ fraction).1.mpr ?_⟩
  · exact fun negative => absurd negative.1 (by decide)
  · exact ⟨X.inf, inf_mem le, by norm_num [X]⟩

end Interval

end IntervalCalc
