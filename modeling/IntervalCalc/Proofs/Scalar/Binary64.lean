import Mathlib
import IntervalCalc.Proofs.Scalar.Order

/-!
What binary64 numbers are exactly. The whole number taken from the fields of a number is found
again in the rational number that the fields stand for, and one less than a number with a
fractional part is computed without rounding.
-/

namespace IntervalCalc

namespace Binary64

open Float.Model (UnpackedFloat Format totalExponent)
open Float.Model.UnpackedFloat (Sign ExtendedMantissa unpackMantissa unpackExponent unpackSign
  packComponents unpackMantissa_packComponents unpackExponent_packComponents)

/-- The number that it stands for, and zero if it stands for none. -/
def value : Binary64 → ℚ
  | finite negative significand exponent =>
    (if negative then -1 else 1) * (significand * 2 ^ exponent)
  | _ => 0

section Value

variable (significand : Nat) (exponent : Int)

/-- The power of two is written as a quotient of two whole ones, of which one is 1. -/
theorem magnitude_eq : (significand * 2 ^ exponent : ℚ) =
    (significand <<< exponent.toNat : Nat) / (1 <<< (-exponent).toNat : Nat) := by
  rw [Nat.shiftLeft_eq, Nat.one_shiftLeft]
  push_cast
  rw [mul_div_assoc, ← zpow_natCast, ← zpow_natCast, ← zpow_sub₀ two_ne_zero]
  congr 2
  omega

theorem floorNat_eq (x : Binary64) : x.floorNat = ⌊x.value⌋₊ := by
  cases x with
  | undefined | infinite => exact Nat.floor_zero.symm
  | finite negative significand exponent =>
      cases negative with
      | false =>
          change _ = ⌊(1 * (significand * 2 ^ exponent) : ℚ)⌋₊
          rw [one_mul, magnitude_eq, Nat.floor_div_eq_div, Nat.one_shiftLeft]
          exact Nat.shiftRight_eq_div_pow _ _
      | true =>
          refine (Nat.floor_of_nonpos ?_).symm
          have magnitude : (0 : ℚ) ≤ significand * 2 ^ exponent := by positivity
          exact (neg_one_mul _).trans_le (neg_nonpos.mpr magnitude)

theorem dvd_shiftLeft_iff : 1 <<< (-exponent).toNat ∣ significand <<< exponent.toNat ↔
    significand % 1 <<< (-exponent).toNat = 0 := by
  rw [← Nat.dvd_iff_mod_eq_zero]
  rcases Int.le_total 0 exponent with whole | part
  · rw [Int.toNat_of_nonpos (by omega : -exponent ≤ 0)]
    exact iff_of_true (one_dvd _) (one_dvd _)
  · rw [Int.toNat_of_nonpos part]
    rfl

theorem exists_magnitude_iff : (∃ n : Int, (significand * 2 ^ exponent : ℚ) = n) ↔
    significand % 1 <<< (-exponent).toNat = 0 := by
  have positive : 1 <<< (-exponent).toNat ≠ 0 := by
    rw [Nat.one_shiftLeft]
    positivity
  rw [magnitude_eq, ← dvd_shiftLeft_iff, ← Int.natCast_dvd_natCast, dvd_def]
  generalize 1 <<< (-exponent).toNat = scale at positive ⊢
  generalize significand <<< exponent.toNat = units
  refine exists_congr fun n => ?_
  rw [div_eq_iff (Nat.cast_ne_zero.mpr positive), mul_comm]
  norm_cast

theorem isIntegral_iff (negative : Bool) :
    (finite negative significand exponent).isIntegral ↔
      ∃ n : Int, (finite negative significand exponent).value = n := by
  have whole : (finite negative significand exponent).isIntegral ↔ _ := beq_iff_eq
  rw [whole, ← exists_magnitude_iff]
  cases negative with
  | false =>
      refine exists_congr fun n => ?_
      exact Eq.congr (one_mul _).symm rfl
  | true =>
      refine (Equiv.neg Int).exists_congr fun n => ?_
      change _ ↔ (-1 * _ : ℚ) = (-n : Int)
      rw [neg_one_mul, Int.cast_neg, neg_inj]

end Value

theorem toNat_unpackMantissa (bits : BitVec Format.binary64.numBits) :
    (unpackMantissa bits).toNat = bits.toNat % 2 ^ 52 := by
  simp [unpackMantissa]

theorem toNat_unpackExponent (bits : BitVec Format.binary64.numBits) :
    (unpackExponent bits).toNat = bits.toNat / 2 ^ 52 % 2 ^ 11 := by
  simp [unpackExponent, Nat.shiftRight_eq_div_pow]

theorem toNat_unpackSign (bits : BitVec Format.binary64.numBits) :
    (unpackSign bits).toNat = bits.toNat / 2 ^ 63 % 2 := by
  simp [unpackSign, Nat.shiftRight_eq_div_pow]

theorem fraction_eq (bits : UInt64) : (bits &&& 0xFFFFFFFFFFFFF).toNat =
    (@unpackMantissa Format.binary64 bits.toBitVec).toNat := by
  rw [toNat_unpackMantissa, UInt64.toNat_and]
  exact Nat.and_two_pow_sub_one_eq_mod _ 52

theorem scale_eq (bits : UInt64) : ((bits >>> 52) &&& 0x7FF).toNat =
    (@unpackExponent Format.binary64 bits.toBitVec).toNat := by
  rw [toNat_unpackExponent, UInt64.toNat_and, UInt64.toNat_shiftRight, Nat.shiftRight_eq_div_pow]
  exact Nat.and_two_pow_sub_one_eq_mod _ 11

theorem negative_eq (bits : UInt64) : (bits >>> 63 == 1) =
    (Sign.ofBitVec (@unpackSign Format.binary64 bits.toBitVec) == .negative) := by
  have below := bits.toNat_lt
  have shifted : (bits >>> 63).toNat = bits.toNat / 2 ^ 63 := by
    rw [UInt64.toNat_shiftRight, Nat.shiftRight_eq_div_pow]
    rfl
  have sign := toNat_unpackSign bits.toBitVec
  rw [UInt64.toNat_toBitVec, Nat.mod_eq_of_lt (by omega)] at sign
  rw [Bool.eq_iff_iff, beq_iff_eq, ← UInt64.toNat_inj, shifted, ← sign]
  generalize @unpackSign Format.binary64 bits.toBitVec = bit
  revert bit
  decide

theorem toNat_hidden_append (fraction : BitVec 52) :
    (1#1 ++ fraction).toNat = 1 <<< 52 + fraction.toNat := by
  rw [BitVec.toNat_append, ← Nat.shiftLeft_add_eq_or_of_lt fraction.isLt]
  rfl

/-- What an unpacked number stands for. Zero has the least exponent. -/
def ofUnpacked : UnpackedFloat → Binary64
  | .notANumber => undefined
  | .infinity sign => infinite (sign == .negative)
  | .zero sign => finite (sign == .negative) 0 (-1074)
  | .finite sign significand exponent _ => finite (sign == .negative) significand exponent

theorem ofBits_eq (bits : UInt64) :
    ofBits bits = ofUnpacked (.unpack Format.binary64 bits.toBitVec) := by
  unfold ofBits
  simp only [scale_eq, fraction_eq, negative_eq, beq_iff_eq]
  fun_cases UnpackedFloat.unpack Format.binary64 bits.toBitVec with
  | case1 fraction scale _ _ greatest zero =>
      have greatest : scale.toNat = 0x7FF := congrArg BitVec.toNat greatest
      have zero : fraction.toNat = 0 := congrArg BitVec.toNat zero
      rw [if_pos greatest, if_pos zero]
      rfl
  | case2 fraction scale greatest nonzero =>
      have greatest : scale.toNat = 0x7FF := congrArg BitVec.toNat greatest
      have nonzero : fraction.toNat ≠ 0 := fun same => nonzero (BitVec.eq_of_toNat_eq same)
      rw [if_pos greatest, if_neg nonzero]
      rfl
  | case3 fraction scale _ _ notGreatest least zero =>
      have notGreatest : scale.toNat ≠ 0x7FF :=
        fun same => notGreatest (BitVec.eq_of_toNat_eq same)
      have least : scale.toNat = 0 := congrArg BitVec.toNat least
      have zero : fraction.toNat = 0 := congrArg BitVec.toNat zero
      rw [if_neg notGreatest, if_pos least, zero]
      rfl
  | case4 fraction scale exponent _ _ notGreatest least =>
      have notGreatest : scale.toNat ≠ 0x7FF :=
        fun same => notGreatest (BitVec.eq_of_toNat_eq same)
      have least : scale.toNat = 0 := congrArg BitVec.toNat least
      have bottom : exponent + 1 = -1074 :=
        congrArg (fun scale : Nat => (scale : Int) - 1075 + 1) least
      rw [if_neg notGreatest, if_pos least, bottom]
      rfl
  | case5 fraction scale exponent _ _ notGreatest notLeast =>
      have notGreatest : scale.toNat ≠ 0x7FF :=
        fun same => notGreatest (BitVec.eq_of_toNat_eq same)
      have notLeast : scale.toNat ≠ 0 := fun same => notLeast (BitVec.eq_of_toNat_eq same)
      rw [if_neg notGreatest, if_neg notLeast, ← toNat_hidden_append]
      rfl

theorem ofFloat_eq (x : Float) : ofFloat x = ofUnpacked x.toModel.unpack :=
  ofBits_eq _

theorem isIntegral_ofFloat_iff {x : Float} (defined : x.isFinite) :
    (ofFloat x).isIntegral ↔ ∃ n : Int, (ofFloat x).value = n := by
  change x.toModel.unpack.isFinite at defined
  rw [ofFloat_eq]
  cases unpacked : x.toModel.unpack with
  | notANumber | infinity => rw [unpacked] at defined; cases defined
  | zero | finite => exact isIntegral_iff _ _ _

/-- The limits of the fields. Only at the least exponent is the significand not full. -/
theorem bounds_of_unpack (bits : BitVec Format.binary64.numBits) {sign : Sign} {m : Nat} {e : Int}
    {positive : 0 < m}
    (unpacked : UnpackedFloat.unpack Format.binary64 bits = .finite sign m e positive) :
    (2 ^ 52 ≤ m ∨ e = -1074) ∧ m < 2 ^ 53 ∧ -1074 ≤ e ∧ e ≤ 971 := by
  revert unpacked
  fun_cases UnpackedFloat.unpack Format.binary64 bits with
  | case1 | case2 | case3 => intro unpacked; cases unpacked
  | case4 fraction scale exponent _ _ _ least =>
      have digits : fraction.toNat < 2 ^ 52 := fraction.isLt
      have bottom : exponent + 1 = -1074 :=
        congrArg (fun scale : Nat => (scale : Int) - 1075 + 1) (congrArg BitVec.toNat least)
      intro unpacked
      injection unpacked
      omega
  | case5 fraction scale exponent _ _ notGreatest notLeast =>
      have notGreatest : scale.toNat ≠ 0x7FF :=
        fun same => notGreatest (BitVec.eq_of_toNat_eq same)
      have notLeast : scale.toNat ≠ 0 := fun same => notLeast (BitVec.eq_of_toNat_eq same)
      have bits : scale.toNat < 2 ^ 11 := scale.isLt
      have digits : fraction.toNat < 2 ^ 52 := fraction.isLt
      have biased : exponent = scale.toNat - 1075 := rfl
      intro unpacked
      injection unpacked with _ full
      rw [toNat_hidden_append, Nat.one_shiftLeft] at full
      omega

theorem ofBitVec_toBitVec (sign : Sign) : Sign.ofBitVec sign.toBitVec = sign := by
  cases sign <;> rfl

theorem unpackSign_packComponents (sign : Sign) (scale : BitVec 11) (fraction : BitVec 52) :
    unpackSign (packComponents Format.binary64 sign scale fraction) = sign.toBitVec := by
  have bit := sign.toBitVec.isLt
  have bits := scale.isLt
  have digits := fraction.isLt
  refine BitVec.eq_of_toNat_eq ?_
  rw [toNat_unpackSign]
  change (sign.toBitVec ++ scale ++ fraction).toNat / 2 ^ 63 % 2 = _
  rw [BitVec.toNat_append, BitVec.toNat_append, ← Nat.shiftLeft_add_eq_or_of_lt digits,
    ← Nat.shiftLeft_add_eq_or_of_lt bits, Nat.shiftLeft_eq, Nat.shiftLeft_eq]
  omega

/-- A full significand, and an exponent not too small for it. -/
structure IsNormal (m : Nat) (e : Int) : Prop where
  low : 2 ^ 52 ≤ m
  high : m < 2 ^ 53
  least : -1074 ≤ e

namespace IsNormal

variable {m k : Nat} {e : Int}

theorem pos (normal : IsNormal m e) : 0 < m :=
  (Nat.two_pow_pos 52).trans_le normal.low

theorem log2_eq (normal : IsNormal m e) : m.log2 = 52 :=
  (Nat.log2_eq_iff normal.pos.ne').mpr ⟨normal.low, normal.high⟩

theorem targetExponent_eq (normal : IsNormal m e) :
    Format.binary64.targetExponent (totalExponent m e) = e := by
  have bits : (Format.binary64.mantissaBits : Int) = 53 := rfl
  have bottom : Format.binary64.minExponent = -1074 := rfl
  have least := normal.least
  unfold Format.targetExponent totalExponent
  rw [normal.log2_eq, bits, bottom]
  omega

end IsNormal

theorem log2_mul_two_pow {m : Nat} (positive : 0 < m) (k : Nat) :
    (m * 2 ^ k).log2 = m.log2 + k := by
  induction k with
  | zero => rw [Nat.pow_zero, Nat.mul_one, Nat.add_zero]
  | succ k ih =>
      have scaled : m * 2 ^ k ≠ 0 := by positivity
      rw [Nat.pow_succ', Nat.mul_left_comm, Nat.log2_two_mul scaled, ih, Nat.add_assoc]

theorem totalExponent_mul_two_pow {m : Nat} (positive : 0 < m) (k : Nat) (e : Int) :
    totalExponent (m * 2 ^ k) e = totalExponent m (e + k) := by
  unfold totalExponent
  rw [log2_mul_two_pow positive]
  push_cast
  ring

/-- Zeros are shifted out without loss. -/
theorem repeat_shiftRightOne (k m : Nat) :
    k.repeat ExtendedMantissa.shiftRightOne ⟨m * 2 ^ k, false, false⟩ = ⟨m, false, false⟩ := by
  induction k generalizing m with
  | zero => rw [Nat.pow_zero, Nat.mul_one]; rfl
  | succ k ih =>
      have shifted : ExtendedMantissa.shiftRightOne ⟨2 * m, false, false⟩ = ⟨m, false, false⟩ := by
        simp [ExtendedMantissa.shiftRightOne]
      rw [Nat.repeat, Nat.pow_succ', ← Nat.mul_assoc, Nat.mul_comm m 2, ih, shifted]

namespace IsNormal

variable {m k : Nat} {e : Int}

theorem shiftToTargetExponent_eq (normal : IsNormal m e) (k : Nat) :
    UnpackedFloat.shiftToTargetExponent Format.binary64 (m * 2 ^ k) (e - k) .exact =
      (⟨m, false, false⟩, e) := by
  have exponent : e - k + k = e := by omega
  have shift : (e - (e - k)).toNat = k := by omega
  unfold UnpackedFloat.shiftToTargetExponent UnpackedFloat.shiftToExponent
  dsimp only
  rw [totalExponent_mul_two_pow normal.pos, exponent, normal.targetExponent_eq, shift]
  exact congr (congrArg Prod.mk (repeat_shiftRightOne k m)) exponent

theorem roundWithAccuracy_eq (normal : IsNormal m e) (k : Nat) (sign : Sign) :
    UnpackedFloat.roundWithAccuracy Format.binary64 sign (m * 2 ^ k) (e - k) .exact =
      .finite sign m e normal.pos := by
  have again := normal.shiftToTargetExponent_eq 0
  rw [Nat.pow_zero, Nat.mul_one, Nat.cast_zero, Int.sub_zero] at again
  have rounded : ExtendedMantissa.roundedMantissa ⟨m, false, false⟩ = m := rfl
  unfold UnpackedFloat.roundWithAccuracy
  simp only [normal.shiftToTargetExponent_eq k, rounded, again]
  exact dif_neg normal.pos.ne'

/-- The significand may be too long, with nothing but zeros at its end, -/
theorem round_long (normal : IsNormal m e) (k : Nat) (sign : Sign) :
    UnpackedFloat.round Format.binary64 sign (m * 2 ^ k) (e - k) =
      .finite sign m e normal.pos := by
  have exponent : e - k + k = e := by omega
  have shift : (e - k - e).toNat = 0 := by omega
  unfold UnpackedFloat.round UnpackedFloat.decreaseExponent
  dsimp only
  rw [totalExponent_mul_two_pow normal.pos, exponent, normal.targetExponent_eq, shift,
    Nat.shiftLeft_zero, Nat.cast_zero, Int.sub_zero]
  exact normal.roundWithAccuracy_eq k sign

/-- or too short. -/
theorem round_short (normal : IsNormal (m * 2 ^ k) e) (sign : Sign) :
    UnpackedFloat.round Format.binary64 sign m (e + k) =
      .finite sign (m * 2 ^ k) e normal.pos := by
  have positive : 0 < m := Nat.pos_of_mul_pos_right normal.pos
  have exponent : e + k - k = e := by omega
  have shift : (e + k - e).toNat = k := by omega
  have rounded := normal.roundWithAccuracy_eq 0 sign
  rw [Nat.pow_zero, Nat.mul_one, Nat.cast_zero, Int.sub_zero] at rounded
  unfold UnpackedFloat.round UnpackedFloat.decreaseExponent
  dsimp only
  rw [← totalExponent_mul_two_pow positive, normal.targetExponent_eq, shift, Nat.shiftLeft_eq,
    exponent]
  exact rounded

/-- A number that has a normal form is rounded to it, with however many zeros it is written. -/
theorem round_eq (normal : IsNormal (m * 2 ^ k) (e - k)) (j : Nat) (sign : Sign) :
    UnpackedFloat.round Format.binary64 sign (m * 2 ^ j) (e - j) =
      .finite sign (m * 2 ^ k) (e - k) normal.pos := by
  rcases Nat.le_total k j with longer | shorter
  · obtain ⟨zeros, rfl⟩ := Nat.exists_eq_add_of_le longer
    have exponent : e - (k + zeros : Nat) = e - k - zeros := by omega
    rw [Nat.pow_add, ← Nat.mul_assoc, exponent]
    exact normal.round_long zeros sign
  · obtain ⟨zeros, rfl⟩ := Nat.exists_eq_add_of_le shorter
    have exponent : e - j = e - (j + zeros : Nat) + zeros := by omega
    have digits : m * 2 ^ (j + zeros) = m * 2 ^ j * 2 ^ zeros := by
      rw [Nat.pow_add, Nat.mul_assoc]
    simp only [digits] at normal ⊢
    rw [exponent]
    exact normal.round_short sign

/-- Packed and unpacked again, a normal number within range is the same. -/
theorem unpack_pack (normal : IsNormal m e) (top : e ≤ 971) (sign : Sign) :
    UnpackedFloat.unpack Format.binary64
        (UnpackedFloat.pack Format.binary64 (.finite sign m e normal.pos)) =
      .finite sign m e normal.pos := by
  have log : m.log2 + 1 = Format.binary64.mantissaBits := by
    rw [normal.log2_eq]
    rfl
  -- The exponent is stored as a number from 1 to 2046.
  have least := normal.least
  obtain ⟨scale, scaled⟩ := Int.eq_ofNat_of_zero_le (by omega : 0 ≤ e + 1075)
  have biased : (e + Format.binary64.exponentBias + (52 : Nat)).toNat = scale := by
    change (e + 1023 + 52).toNat = scale
    omega
  have stored : (BitVec.ofNat 11 scale).toNat = scale := by
    rw [BitVec.toNat_ofNat, Nat.mod_eq_of_lt (by omega)]
  have notGreatest : BitVec.ofNat 11 scale ≠ -1#11 := fun same => by
    have greatest : scale = 0x7FF := stored.symm.trans (congrArg BitVec.toNat same)
    omega
  have notLeast : BitVec.ofNat 11 scale ≠ 0#11 := fun same => by
    have least : scale = 0 := stored.symm.trans (congrArg BitVec.toNat same)
    omega
  have hidden : (1#1 ++ BitVec.ofNat 52 m).toNat = m := by
    have low := normal.low
    have high := normal.high
    rw [toNat_hidden_append, BitVec.toNat_ofNat, Nat.one_shiftLeft]
    omega
  have packed : UnpackedFloat.pack Format.binary64 (.finite sign m e normal.pos) =
      packComponents Format.binary64 sign (BitVec.ofNat 11 scale) (BitVec.ofNat 52 m) := by
    unfold UnpackedFloat.pack
    dsimp only
    rw [biased, if_neg (by omega), if_pos log]
  rw [packed]
  unfold UnpackedFloat.unpack
  simp only [unpackMantissa_packComponents, unpackExponent_packComponents,
    unpackSign_packComponents, ofBitVec_toBitVec, if_neg notGreatest, if_neg notLeast, hidden,
    stored]
  congr 1
  change (scale : Int) - (1023 + 52) = e
  omega

end IsNormal

theorem normalize_of_pos {m : Nat} (positive : 0 < m) (e : Int) (zeroSign : Sign) :
    UnpackedFloat.normalize Format.binary64 m e zeroSign =
      UnpackedFloat.round Format.binary64 .positive m e := by
  have order : compare (m : Int) 0 = .gt := compare_gt_iff_gt.mpr (by omega)
  unfold UnpackedFloat.normalize
  rw [order]
  rfl

/-- A finite number with a fractional part. -/
structure Fractional (x : Float) : Prop where
  finite : x.isFinite
  part : ¬ (ofFloat x).isIntegral

namespace Fractional

variable {x : Float}

/-- The exponent of one is the least that a number above it can have. So that it has a fractional
part, some digits of the significand are behind the point, and so that it exceeds one, not all. -/
theorem unpack_eq (fractional : Fractional x) (more : 1 < x) :
    ∃ m k positive, x.toModel.unpack = .finite .positive m (-(k : Nat)) positive ∧
      m < 2 ^ 53 ∧ k ≤ 52 ∧ 2 ^ k < m := by
  obtain ⟨finite, part⟩ := fractional
  change x.toModel.unpack.isFinite at finite
  rw [ofFloat_eq] at part
  rw [lt_iff, unpack_one] at more
  cases unpacked : x.toModel.unpack with
  | notANumber | infinity => rw [unpacked] at finite; cases finite
  | zero => rw [unpacked] at part; exact absurd rfl part
  | finite sign m e positive =>
      rw [unpacked] at part more
      cases sign with
      | negative => cases more
      | positive =>
          obtain ⟨full, high, -, -⟩ := bounds_of_unpack _ unpacked
          have behind : e < 0 := by
            by_contra whole
            have digits : (-e).toNat = 0 := by omega
            refine part (beq_iff_eq.mpr ?_)
            rw [digits]
            exact Nat.mod_one m
          have above : (compare (-52) e).then (compare (2 ^ 52) m) = .lt := Option.some.inj more
          rw [Ordering.then_eq_lt, compare_lt_iff_lt, compare_eq_iff_eq, compare_lt_iff_lt] at above
          obtain ⟨k, rfl⟩ := Int.eq_negSucc_of_lt_zero behind
          refine ⟨m, k + 1, positive, rfl, high, by omega, ?_⟩
          rcases above with above | ⟨same, above⟩
          · have unit := Nat.pow_le_pow_right Nat.two_pos (by omega : k + 1 ≤ 51)
            omega
          · obtain rfl : k = 51 := by omega
            exact above

end Fractional

/-- Zeros at its end make any significand full. -/
theorem exists_full {m : Nat} (positive : 0 < m) (high : m < 2 ^ 53) :
    ∃ zeros, zeros ≤ 52 ∧ 2 ^ 52 ≤ m * 2 ^ zeros ∧ m * 2 ^ zeros < 2 ^ 53 := by
  have below : m.log2 < 53 := (Nat.log2_lt positive.ne').mpr high
  have log : m.log2 + (52 - m.log2) = 52 := by omega
  refine ⟨52 - m.log2, Nat.sub_le _ _, ?_⟩
  rw [← Nat.log2_eq_iff (by positivity), log2_mul_two_pow positive, log]

/-- One is `2 ^ k` units of a number with `k` digits behind the point. The difference is rounded with
as many zeros behind it as the exponent of one asks for. -/
theorem sub_one_eq_round {rest k : Nat} (behind : k ≤ 52) (positive : 0 < 2 ^ k + rest + 1) :
    ∃ zeros : Nat, UnpackedFloat.sub Format.binary64
        (.finite .positive (2 ^ k + rest + 1) (-(k : Nat)) positive) (1 : Float).toModel.unpack =
      UnpackedFloat.round Format.binary64 .positive ((rest + 1) * 2 ^ zeros)
        (-(k : Nat) - (zeros : Nat)) := by
  obtain ⟨zeros, exponents⟩ := Nat.exists_eq_add_of_le behind
  have lowest : min (-(k : Int)) (-52) = -(k : Int) - zeros := by omega
  have own : (-(k : Int) - (-(k : Int) - zeros)).toNat = zeros := by omega
  have unit : (-52 - (-(k : Int) - zeros)).toNat = 0 := by omega
  have difference : ((2 ^ k + rest + 1) <<< zeros : Nat) - (2 ^ 52 : Nat) =
      (((rest + 1) * 2 ^ zeros : Nat) : Int) := by
    rw [exponents, Nat.shiftLeft_eq, Nat.pow_add]
    push_cast
    ring
  refine ⟨zeros, ?_⟩
  rw [unpack_one]
  unfold UnpackedFloat.sub UnpackedFloat.decreaseExponent
  dsimp only
  rw [lowest, own, unit, Nat.shiftLeft_zero]
  change UnpackedFloat.normalize _
    (((2 ^ k + rest + 1) <<< zeros : Nat) - (2 ^ 52 : Nat)) _ _ = _
  rw [difference, normalize_of_pos (by positivity)]

/-- The difference has no more digits than the number, so that rounding only removes zeros or adds
them. -/
theorem unpack_sub_one {x : Float} {m k : Nat} {positive : 0 < m}
    (unpacked : x.toModel.unpack = .finite .positive m (-(k : Nat)) positive)
    (high : m < 2 ^ 53) (behind : k ≤ 52) (more : 2 ^ k < m) :
    ∃ zeros above, (x - 1).toModel.unpack =
      .finite .positive ((m - 2 ^ k) * 2 ^ zeros) (-(k : Nat) - (zeros : Nat)) above := by
  obtain ⟨rest, rfl⟩ := Nat.exists_eq_add_of_lt more
  have left : 2 ^ k + rest + 1 - 2 ^ k = rest + 1 := by omega
  have unit := Nat.two_pow_pos k
  obtain ⟨zeros, few, full⟩ := exists_full (Nat.succ_pos rest) (by omega)
  have normal : IsNormal ((rest + 1) * 2 ^ zeros) (-(k : Nat) - (zeros : Nat)) :=
    ⟨full.1, full.2, by omega⟩
  obtain ⟨digits, difference⟩ := sub_one_eq_round behind positive
  rw [left]
  refine ⟨zeros, normal.pos, ?_⟩
  change UnpackedFloat.unpack Format.binary64 (UnpackedFloat.pack Format.binary64
    (UnpackedFloat.sub Format.binary64 x.toModel.unpack (1 : Float).toModel.unpack)) = _
  rw [unpacked, difference, normal.round_eq]
  exact normal.unpack_pack (by omega) _

namespace Fractional

variable {x : Float}

/-- Subtracting one from a number above one that has a fractional part is exact. -/
theorem value_sub_one (fractional : Fractional x) (more : 1 < x) :
    1 < (ofFloat x).value ∧ (x - 1).isFinite ∧
      (ofFloat (x - 1)).value = (ofFloat x).value - 1 := by
  obtain ⟨m, k, positive, unpacked, high, behind, above⟩ := fractional.unpack_eq more
  obtain ⟨zeros, _, less⟩ := unpack_sub_one unpacked high behind above
  have value : (ofFloat x).value = m / 2 ^ k := by
    rw [ofFloat_eq, unpacked]
    change (1 * (m * 2 ^ (-k : Int)) : ℚ) = _
    rw [one_mul, zpow_neg, zpow_natCast, div_eq_mul_inv]
  refine ⟨?_, ?_, ?_⟩
  · rw [value, one_lt_div (by positivity)]
    exact_mod_cast above
  · change (x - 1).toModel.unpack.isFinite
    rw [less]
    rfl
  · rw [value, ofFloat_eq, less]
    change (1 * (((m - 2 ^ k) * 2 ^ zeros : Nat) * 2 ^ (-(k : Int) - (zeros : Int))) : ℚ) = _
    rw [zpow_sub₀ two_ne_zero, zpow_neg, zpow_natCast, zpow_natCast]
    push_cast [Nat.cast_sub above.le]
    field_simp

theorem sub_one (fractional : Fractional x) (more : 1 < x) : Fractional (x - 1) := by
  obtain ⟨-, finite, value⟩ := fractional.value_sub_one more
  refine ⟨finite, fun whole => fractional.part ?_⟩
  obtain ⟨n, whole⟩ := (isIntegral_ofFloat_iff finite).mp whole
  rw [value, sub_eq_iff_eq_add] at whole
  exact (isIntegral_ofFloat_iff fractional.finite).mpr ⟨n + 1, by exact_mod_cast whole⟩

theorem floorNat_sub_one (fractional : Fractional x) (more : 1 < x) :
    (ofFloat (x - 1)).floorNat + 1 = (ofFloat x).floorNat := by
  obtain ⟨above, -, value⟩ := fractional.value_sub_one more
  have one : 1 ≤ ⌊(ofFloat x).value⌋₊ := Nat.one_le_floor_iff _ |>.mpr above.le
  rw [floorNat_eq, floorNat_eq, value, Nat.floor_sub_one]
  omega

end Fractional

end Binary64

end IntervalCalc
