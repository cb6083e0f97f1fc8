import IntervalCalc.Proofs.Interval.Exact

/-!
Enclosure. Over exact numbers an operation of intervals, if it gives an interval, gives one that
holds the results of the operation on all numbers of its operands.
-/

namespace IntervalCalc.Interval

instance {α : Type} [Scalar α] : Membership α (Interval α) where
  mem X x := X.contains x

section OrderedField

variable {K : Type} [Field K] [LinearOrder K] [IsStrictOrderedRing K]

/-- A product lies between the products of two bounds of a factor. -/
theorem mul_between {a b x : K} (low : a ≤ x) (high : x ≤ b) (y : K) :
    min (a * y) (b * y) ≤ x * y ∧ x * y ≤ max (a * y) (b * y) := by
  rcases le_total 0 y with sign | sign
  · exact ⟨(min_le_left _ _).trans (mul_le_mul_of_nonneg_right low sign),
      (mul_le_mul_of_nonneg_right high sign).trans (le_max_right _ _)⟩
  · exact ⟨(min_le_right _ _).trans (mul_le_mul_of_nonpos_right high sign),
      (mul_le_mul_of_nonpos_right low sign).trans (le_max_left _ _)⟩

/-- Among nonnegative numbers powers keep the order, and to an odd exponent among all numbers. -/
theorem pow_le_pow_of_le {a b : K} {n : ℕ} (case : 0 ≤ a ∨ Odd n) (le : a ≤ b) : a ^ n ≤ b ^ n := by
  rcases case with positive | odd
  · exact pow_le_pow_left₀ positive le n
  · exact odd.strictMono_pow.monotone le

/-- To an even exponent the number of greater absolute value has the greater power. -/
theorem pow_le_pow_of_abs_le {a b : K} {n : ℕ} (even : Even n) (le : |a| ≤ |b|) :
    a ^ n ≤ b ^ n := by
  rw [← even.pow_abs a, ← even.pow_abs b]
  exact pow_le_pow_left₀ (abs_nonneg a) le n

theorem pow_le_pow_of_nonpos {a b : K} {n : ℕ} (even : Even n) (le : a ≤ b) (sign : b ≤ 0) :
    b ^ n ≤ a ^ n := by
  refine pow_le_pow_of_abs_le even ?_
  rw [abs_of_nonpos sign, abs_of_nonpos (le.trans sign)]
  exact neg_le_neg le

end OrderedField

variable {K : Type} [Field K] [LinearOrder K] [FloorRing K] [Functions K]
variable {X Y Z : Interval (Exact K)} {x y : Exact K}

theorem mem_iff : x ∈ X ↔ X.inf.val ≤ x.val ∧ x.val ≤ X.sup.val := by
  change (decide (X.inf.val ≤ x.val) && decide (x.val ≤ X.sup.val)) = true ↔ _
  rw [Bool.and_eq_true, decide_eq_true_iff, decide_eq_true_iff]

theorem mem_between {a b : Exact K} :
    x ∈ between a b ↔ min a.val b.val ≤ x.val ∧ x.val ≤ max a.val b.val := by
  unfold between
  by_cases ordered : a.val ≤ b.val
  · rw [if_pos ((Exact.le_iff a b).mpr ordered), mem_iff, min_eq_left ordered, max_eq_right ordered]
  · have reversed := (not_le.mp ordered).le
    rw [if_neg (mt (Exact.le_iff a b).mp ordered), mem_iff, min_eq_right reversed,
      max_eq_left reversed]

/-- Between two values lies what lies above one and below the other. -/
theorem mem_between_of_le {a b : Exact K} (low : a.val ≤ x.val) (high : x.val ≤ b.val) :
    x ∈ between a b :=
  mem_between.mpr ⟨(min_le_left _ _).trans low, high.trans (le_max_right _ _)⟩

theorem mem_between_of_ge {a b : Exact K} (high : x.val ≤ a.val) (low : b.val ≤ x.val) :
    x ∈ between a b :=
  mem_between.mpr ⟨(min_le_right _ _).trans low, high.trans (le_max_left _ _)⟩

theorem mem_point (x : Exact K) : x ∈ point x :=
  mem_iff.mpr ⟨le_rfl, le_rfl⟩

theorem ascending_eq (a b : Exact K) :
    ascending a b = (⟨min a.val b.val⟩, ⟨max a.val b.val⟩) := by
  unfold ascending
  by_cases less : b.val < a.val
  · rw [if_pos ((Exact.lt_iff b a).mpr less), min_eq_right less.le, max_eq_left less.le]
  · have ordered := not_lt.mp less
    rw [if_neg (mt (Exact.lt_iff b a).mp less), min_eq_left ordered, max_eq_right ordered]

/-- The bounds of a product are the least and the greatest of the four products of bounds. -/
theorem mul_eq (X Y : Interval (Exact K)) : X * Y = between
    ⟨min (min (X.inf.val * Y.inf.val) (X.inf.val * Y.sup.val))
      (min (X.sup.val * Y.inf.val) (X.sup.val * Y.sup.val))⟩
    ⟨max (max (X.inf.val * Y.inf.val) (X.inf.val * Y.sup.val))
      (max (X.sup.val * Y.inf.val) (X.sup.val * Y.sup.val))⟩ := by
  have least : ∀ a b : Exact K, (if b < a then b else a) = ⟨min a.val b.val⟩ :=
    fun a b => (apply_ite Prod.fst _ _ _).symm.trans (congrArg Prod.fst (ascending_eq a b))
  have greatest : ∀ a b : Exact K, (if b < a then a else b) = ⟨max a.val b.val⟩ :=
    fun a b => (apply_ite Prod.snd _ _ _).symm.trans (congrArg Prod.snd (ascending_eq a b))
  change mul X Y = _
  unfold mul
  rw [ascending_eq, ascending_eq]
  dsimp only
  rw [least, greatest]
  rfl

theorem val_pow (powers : Functions.WholePowers K) (x : Exact K) (n : ℕ) :
    (Scalar.pow x ⟨(n : ℤ)⟩).val = x.val ^ n := by
  change Functions.pow x.val ((n : ℤ) : K) = _
  rw [powers x.val n (.inr (Int.natCast_nonneg n)), zpow_natCast]

theorem one_div_pow (powers : Functions.WholePowers K) {n : ℕ} (nonzero : x.val ≠ 0) :
    1 / Scalar.pow x ⟨(n : ℤ)⟩ = Scalar.pow x ⟨((-(n : ℤ) : ℤ) : K)⟩ := by
  apply Exact.ext
  rw [Exact.val_div, val_pow powers, Exact.val_one]
  change 1 / x.val ^ n = Functions.pow x.val ((-(n : ℤ) : ℤ) : K)
  rw [powers x.val (-n) (.inl nonzero), zpow_neg, zpow_natCast, one_div]

theorem pow_mem_of_le (powers : Functions.WholePowers K) {a b : Exact K} {n : ℕ}
    (low : a.val ^ n ≤ x.val ^ n) (high : x.val ^ n ≤ b.val ^ n) :
    Scalar.pow x ⟨(n : ℤ)⟩ ∈ between (Scalar.pow a ⟨(n : ℤ)⟩) (Scalar.pow b ⟨(n : ℤ)⟩) := by
  refine mem_between_of_le ?_ ?_
  · rw [val_pow powers, val_pow powers]
    exact low
  · rw [val_pow powers, val_pow powers]
    exact high

theorem pow_mem_of_ge (powers : Functions.WholePowers K) {a b : Exact K} {n : ℕ}
    (high : x.val ^ n ≤ a.val ^ n) (low : b.val ^ n ≤ x.val ^ n) :
    Scalar.pow x ⟨(n : ℤ)⟩ ∈ between (Scalar.pow a ⟨(n : ℤ)⟩) (Scalar.pow b ⟨(n : ℤ)⟩) := by
  refine mem_between_of_ge ?_ ?_
  · rw [val_pow powers, val_pow powers]
    exact high
  · rw [val_pow powers, val_pow powers]
    exact low

variable [IsStrictOrderedRing K]

theorem shift_mem (hx : x ∈ X) (distance : Exact K) : x + distance ∈ X.shift distance := by
  obtain ⟨low, high⟩ := mem_iff.mp hx
  exact mem_between_of_le (add_le_add_left low _) (add_le_add_left high _)

theorem neg_mem (hx : x ∈ X) : -x ∈ -X := by
  obtain ⟨low, high⟩ := mem_iff.mp hx
  exact mem_between_of_le (neg_le_neg high) (neg_le_neg low)

theorem add_mem (hx : x ∈ X) (hy : y ∈ Y) : x + y ∈ X + Y := by
  obtain ⟨low, high⟩ := mem_iff.mp hx
  obtain ⟨low', high'⟩ := mem_iff.mp hy
  exact mem_between_of_le (add_le_add low low') (add_le_add high high')

theorem sub_mem (hx : x ∈ X) (hy : y ∈ Y) : x - y ∈ X - Y := by
  obtain ⟨low, high⟩ := mem_iff.mp hx
  obtain ⟨low', high'⟩ := mem_iff.mp hy
  exact mem_between_of_le (sub_le_sub low high') (sub_le_sub high low')

theorem mul_mem (hx : x ∈ X) (hy : y ∈ Y) : x * y ∈ X * Y := by
  obtain ⟨low, high⟩ := mem_iff.mp hx
  obtain ⟨low', high'⟩ := mem_iff.mp hy
  have outer := mul_between low high y.val
  have first := mul_between low' high' X.inf.val
  have second := mul_between low' high' X.sup.val
  rw [mul_comm Y.inf.val, mul_comm Y.sup.val, mul_comm y.val] at first second
  rw [mul_eq]
  exact mem_between_of_le ((min_le_min first.1 second.1).trans outer.1)
    (outer.2.trans (max_le_max first.2 second.2))

theorem recip_mem (found : X.recip = .ok Z) (hx : x ∈ X) : x.val ≠ 0 ∧ 1 / x ∈ Z := by
  obtain ⟨low, high⟩ := mem_iff.mp hx
  unfold recip at found
  split at found
  next apart =>
    cases found
    rcases apart with positive | negative
    · have below : 0 < x.val := ((Exact.lt_iff 0 X.inf).mp positive).trans_le low
      exact ⟨below.ne', mem_between_of_le (one_div_le_one_div_of_le below high)
        (one_div_le_one_div_of_le ((Exact.lt_iff 0 X.inf).mp positive) low)⟩
    · have above : x.val < 0 := high.trans_lt ((Exact.lt_iff X.sup 0).mp negative)
      exact ⟨above.ne, mem_between_of_le
        (one_div_le_one_div_of_neg_of_le ((Exact.lt_iff X.sup 0).mp negative) high)
        (one_div_le_one_div_of_neg_of_le above low)⟩
  · cases found

theorem div_mem (found : X.div Y = .ok Z) (hx : x ∈ X) (hy : y ∈ Y) : x / y ∈ Z := by
  unfold div at found
  cases inverted : Y.recip with
  | error error => rw [inverted] at found; cases found
  | ok inverse =>
      rw [inverted] at found
      cases found
      have product := mul_mem hx (recip_mem inverted hy).2
      have quotient : x * (1 / y) = x / y := Exact.ext (mul_one_div x.val y.val)
      rw [quotient] at product
      exact product

theorem isIntegral_intCast (n : ℤ) : Scalar.isIntegral (⟨n⟩ : Exact K) = true :=
  (Exact.isIntegral_iff _).mpr ⟨n, rfl⟩

theorem isEven_intCast (n : ℤ) : Scalar.isEven (⟨n⟩ : Exact K) = true ↔ Even n := by
  have half : Scalar.isIntegral ((⟨n⟩ : Exact K) / Scalar.two) = true ↔ Even n := by
    rw [Exact.isIntegral_iff]
    refine exists_congr fun m => ?_
    rw [Exact.val_div, Exact.val_two, div_eq_iff (two_ne_zero' K), ← Int.cast_ofNat, ← Int.cast_mul,
      Int.cast_inj, mul_two]
  rw [Scalar.isEven, isIntegral_intCast, Bool.true_and, half]

section Powers

variable (powers : Functions.WholePowers K)

include powers

theorem positivePow_mem {n : ℕ} (found : X.positivePow ⟨(n : ℤ)⟩ = .ok Z) (hx : x ∈ X) :
    Scalar.pow x ⟨(n : ℤ)⟩ ∈ Z := by
  obtain ⟨low, high⟩ := mem_iff.mp hx
  have whole := isIntegral_intCast (K := K) n
  unfold positivePow at found
  split at found
  next positive =>
    have sign := ((Exact.lt_iff 0 X.inf).mp positive).le
    cases found
    exact pow_mem_of_le powers (pow_le_pow_of_le (.inl sign) low)
      (pow_le_pow_of_le (.inl (sign.trans low)) high)
  · split at found
    next negative =>
      have sign := ((Exact.lt_iff X.sup 0).mp negative).le
      cases found
      -- an even power turns negative numbers round, an odd one does not
      rcases Nat.even_or_odd n with even | odd
      · exact pow_mem_of_le powers (pow_le_pow_of_nonpos even high sign)
          (pow_le_pow_of_nonpos even low (high.trans sign))
      · exact pow_mem_of_ge powers (pow_le_pow_of_le (.inr odd) high)
          (pow_le_pow_of_le (.inr odd) low)
    · split at found
      next folds =>
        have even : Even n := (Int.even_coe_nat n).mp ((isEven_intCast _).mp folds)
        have farthest : |x.val| ≤ |X.magnitude.val| := by
          rw [magnitude, Exact.val_max, Exact.val_abs, Exact.val_abs]
          exact (abs_le_max_abs_abs low high).trans (le_abs_self _)
        cases found
        refine mem_between_of_le ?_ ?_
        · rw [val_pow powers]
          exact even.pow_nonneg x.val
        · rw [val_pow powers, val_pow powers]
          exact pow_le_pow_of_abs_le even farthest
      next keeps =>
        have odd : Odd n := Nat.not_even_iff_odd.mp fun even =>
          keeps ((isEven_intCast _).mpr ((Int.even_coe_nat n).mpr even))
        cases found
        exact pow_mem_of_le powers (pow_le_pow_of_le (.inr odd) low)
          (pow_le_pow_of_le (.inr odd) high)

theorem pow_mem {n : ℤ} (found : X.pow ⟨n⟩ = .ok Z) (hx : x ∈ X) : Scalar.pow x ⟨n⟩ ∈ Z := by
  unfold pow at found
  split at found
  next zero =>
    obtain rfl : n = 0 := Int.cast_eq_zero.mp ((Exact.beq_iff _ _).mp zero)
    cases found
    have one : Scalar.pow x ⟨((0 : ℤ) : K)⟩ = 1 :=
      Exact.ext ((val_pow powers x 0).trans (pow_zero _))
    rw [one]
    exact mem_point 1
  · split at found
    next negative =>
      have sign : n < 0 := Int.cast_lt_zero.mp ((Exact.lt_iff _ _).mp negative)
      obtain ⟨m, rfl⟩ : ∃ m : ℕ, n = -(m : ℤ) := ⟨n.natAbs, by omega⟩
      have opposite : -(⟨((-(m : ℤ) : ℤ) : K)⟩ : Exact K) = ⟨((m : ℤ) : K)⟩ := by
        apply Exact.ext
        rw [Exact.val_neg, Int.cast_neg, neg_neg]
      rw [opposite] at found
      cases raised : X.positivePow ⟨((m : ℤ) : K)⟩ with
      | error error => rw [raised] at found; cases found
      | ok P =>
          rw [raised] at found
          obtain ⟨apart, inverse⟩ := recip_mem found (positivePow_mem powers raised hx)
          rw [val_pow powers] at apart
          have nonzero : x.val ≠ 0 := by
            intro zero
            exact apart (by rw [zero, zero_pow (by omega)])
          rw [one_div_pow powers nonzero] at inverse
          exact inverse
    next more =>
      have sign : 0 ≤ n := by
        by_contra negative
        exact more ((Exact.lt_iff _ _).mpr (Int.cast_lt_zero.mpr (not_le.mp negative)))
      obtain ⟨m, rfl⟩ := Int.eq_ofNat_of_zero_le sign
      exact positivePow_mem powers found hx

end Powers

end IntervalCalc.Interval
