import IntervalCalc.Evaluation.Evaluate
import IntervalCalc.Proofs.Agreement
import IntervalCalc.Proofs.Interval.Exact
import IntervalCalc.Proofs.Scalar.Binary64

/-!
Factorials. A product runs down from a number for as long as the factor exceeds one, or up to a
natural number. With exact numbers the two give the same, and over binary64 numbers the one that
runs down ends for every finite number that is sent there.
-/

namespace IntervalCalc

namespace Scalar

section Ways

variable {α : Type} [Scalar α]

/-- What multiplying a product by `x`, `x - 1` and so on comes to, for as long as the factor
exceeds one. No bound is set on how many factors there are. -/
inductive Descends : (x product result : α) → Prop
  | done {x product : α} : ¬ 1 < x → Descends x product product
  | next {x product result : α} : 1 < x → Descends (x - 1) (product * x) result →
      Descends x product result

/-- The ways to a factorial, and what each of them comes to. -/
inductive HasFactorial (x : α) : α → Prop
  | excessive : isIntegral x → 0 ≤ x → NatCast.natCast 170 < x → HasFactorial x infinity
  | ascending : isIntegral x → 0 ≤ x → ¬ NatCast.natCast 170 < x →
      HasFactorial x (naturalFactorial (floorNat x))
  | descending {result : α} : ¬ (isIntegral x ∧ 0 ≤ x) → Descends x 1 result →
      HasFactorial x result

variable {x product : α}

theorem Descends.unique {r s : α} (left : Descends x product r) (right : Descends x product s) :
    r = s := by
  induction left with
  | done low =>
      cases right with
      | done => rfl
      | next more => exact absurd more low
  | next more _ ih =>
      cases right with
      | done low => exact absurd more low
      | next _ rest => exact ih rest

/-- A factor that one less leaves as it is would be multiplied by for ever. -/
theorem not_descends (more : 1 < x) (same : x - 1 = x) (result : α) :
    ¬ Descends x product result := by
  intro descends
  induction descends with
  | done low => exact low more
  | next _ _ ih =>
      rw [same] at ih
      exact ih more same

example (result : Float) : ¬ Descends (1 / 0) 1 result :=
  not_descends (by decide +kernel) (by decide +kernel) result

/-- A property of the factors, through which one less brings the floor down. -/
def CountsDown (P : α → Prop) : Prop :=
  ∀ x, P x → 1 < x → P (x - 1) ∧ floorNat (x - 1) < floorNat x

/-- By induction on the steps, which the floor stays below: the bound on them is never met. -/
theorem CountsDown.descends {P : α → Prop} (counts : CountsDown P) {steps : Nat} (holds : P x)
    (below : floorNat x < steps) : Descends x product (descendingProduct steps x product) := by
  induction steps generalizing x product with
  | zero => omega
  | succ steps ih =>
      unfold descendingProduct
      by_cases more : 1 < x
      · obtain ⟨holds, less⟩ := counts x holds more
        rw [if_pos more]
        exact .next more (ih holds (by omega))
      · rw [if_neg more]
        exact .done more

theorem CountsDown.hasFactorial {P : α → Prop} (counts : CountsDown P)
    (holds : ¬ (isIntegral x ∧ 0 ≤ x) → P x) : HasFactorial x (factorial x) := by
  unfold factorial
  by_cases natural : isIntegral x ∧ 0 ≤ x
  · rw [if_pos (by simp [natural])]
    by_cases great : (NatCast.natCast 170 : α) < x
    · rw [if_pos great]
      exact .excessive natural.1 natural.2 great
    · rw [if_neg great]
      exact .ascending natural.1 natural.2 great
  · rw [if_neg (by simpa using natural)]
    exact .descending natural (counts.descends (holds natural) (Nat.lt_succ_self _))

theorem naturalFactorial_succ (n : Nat) :
    (naturalFactorial (n + 2) : α) = naturalFactorial (n + 1) * NatCast.natCast (n + 2) := by
  have last : List.range' 2 (n + 1) = List.range' 2 n ++ [2 + n] := List.range'_1_concat
  unfold naturalFactorial
  rw [Nat.add_sub_cancel, Nat.add_succ_sub_one, last, List.foldl_append, Nat.add_comm 2 n]
  rfl

end Ways

section Exact

variable {K : Type} [Field K] [LinearOrder K] [FloorRing K] [Functions K]
variable {x product result : Exact K}

/-- A product that is begun with `factor` comes to so many times as much. -/
theorem Descends.scale (descends : Descends x product result) (factor : Exact K) :
    Descends x (factor * product) (factor * result) := by
  induction descends with
  | done low => exact .done low
  | @next x product result more _ ih =>
      have assoc : factor * product * x = factor * (product * x) :=
        Exact.ext (mul_assoc factor.val product.val x.val)
      rw [← assoc] at ih
      exact .next more ih

theorem Descends.eq_one (low : x.val ≤ 1) (descends : Descends x 1 result) : result = 1 := by
  cases descends with
  | done => rfl
  | next more => exact absurd more low.not_gt

theorem Descends.eq_mul {less : Exact K} (more : 1 < x.val) (descends : Descends x 1 result)
    (before : Descends (x - 1) 1 less) : result = x * less := by
  have one : x * 1 = 1 * x := Exact.ext (mul_comm x.val 1)
  refine descends.unique (.next more ?_)
  rw [← one]
  exact before.scale x

variable [IsStrictOrderedRing K]

theorem countsDown_exact : CountsDown fun _ : Exact K => True := by
  intro x _ more
  have more : 1 < x.val := more
  have one : 1 ≤ ⌊x.val⌋ := Int.le_floor.mpr (by exact_mod_cast more.le)
  have less : ⌊x.val - 1⌋ = ⌊x.val⌋ - 1 := Int.floor_sub_one x.val
  refine ⟨trivial, ?_⟩
  change ⌊x.val - 1⌋.toNat < ⌊x.val⌋.toNat
  omega

/-- The product that runs up is the one that runs down, factor by factor from its end. -/
theorem descends_naturalFactorial (n : Nat) :
    Descends (NatCast.natCast n : Exact K) 1 (naturalFactorial n) := by
  induction n with
  | zero => exact .done (not_lt.mpr (Nat.cast_zero.trans_le zero_le_one))
  | succ n ih =>
      cases n with
      | zero => exact .done (not_lt.mpr Nat.cast_one.le)
      | succ n =>
          have more : (1 : K) < (n + 1 + 1 : Nat) := by exact_mod_cast (by omega : 1 < n + 1 + 1)
          have less : (NatCast.natCast (n + 2) - 1 : Exact K) = NatCast.natCast (n + 1) := by
            refine Exact.ext (?_ : ((n + 1 + 1 : Nat) : K) - 1 = (n + 1 : Nat))
            push_cast
            ring
          have swap : (NatCast.natCast (n + 2) * naturalFactorial (n + 1) : Exact K) =
              naturalFactorial (n + 2) := by
            rw [naturalFactorial_succ]
            exact Exact.ext (mul_comm _ _)
          have one : (NatCast.natCast (n + 2) * 1 : Exact K) = 1 * NatCast.natCast (n + 2) :=
            Exact.ext (mul_comm _ _)
          have scaled := ih.scale (NatCast.natCast (n + 2))
          rw [swap, one, ← less] at scaled
          exact .next more scaled

theorem descends_of_isIntegral (whole : isIntegral x) :
    Descends x 1 (naturalFactorial (floorNat x)) := by
  obtain ⟨n, whole⟩ := (Exact.isIntegral_iff x).mp whole
  have floor : floorNat x = n.toNat := by
    change ⌊x.val⌋.toNat = _
    rw [whole, Int.floor_intCast]
  rw [floor]
  cases n with
  | ofNat n =>
      have same : x = NatCast.natCast n := Exact.ext (whole.trans (Int.cast_natCast n))
      rw [same]
      exact descends_naturalFactorial n
  | negSucc n =>
      refine .done (not_lt.mpr ?_)
      change x.val ≤ 1
      rw [whole]
      exact_mod_cast (by omega : Int.negSucc n ≤ 1)

theorem isIntegral_of_sub_one (whole : isIntegral (x - 1)) : isIntegral x := by
  obtain ⟨n, whole⟩ := (Exact.isIntegral_iff (x - 1)).mp whole
  have next : x.val = (n + 1 : Int) := by
    push_cast
    exact sub_eq_iff_eq_add.mp whole
  exact (Exact.isIntegral_iff x).mpr ⟨_, next⟩

/-- Only the natural numbers that are taken to infinity are not given the product. -/
theorem descends_factorial (small : ¬ isIntegral x ∨ x.val ≤ 170) :
    Descends x 1 (factorial x) := by
  have way : HasFactorial x (factorial x) := countsDown_exact.hasFactorial fun _ => trivial
  generalize factorial x = result at way ⊢
  cases way with
  | excessive whole _ great =>
      have great : ((170 : Nat) : K) < x.val := great
      exact absurd small (not_or.mpr ⟨not_not.mpr whole, not_le.mpr (by exact_mod_cast great)⟩)
  | ascending whole => exact descends_of_isIntegral whole
  | descending _ descends => exact descends

end Exact

/-- The factors above one have a fractional part, the next one if the one before it has. -/
theorem countsDown_float : CountsDown fun x : Float => 1 < x → Binary64.Fractional x :=
  fun _ fractional more =>
    ⟨fun _ => (fractional more).sub_one more,
      ((fractional more).floorNat_sub_one more).le⟩

theorem hasFactorial_of_isFinite {x : Float} (finite : x.isFinite) :
    HasFactorial x (factorial x) :=
  countsDown_float.hasFactorial fun other more =>
    ⟨finite, fun whole => other ⟨whole, Binary64.zero_le_of_one_lt more⟩⟩

/-- Every finite number has a factorial, and the sign behind an operand whose value it is gives that
and leaves the scope as the operand did. With exact numbers the factorial is 1 up to one, and above
one the number times the factorial of one less, as long as the number is not whole or at most 170:
for a whole number the product that runs up is the one that runs down. -/
theorem factorial_ends_and_agrees :
    (∀ (v : Float), v.isFinite → HasFactorial v (factorial v) ∧
      ∀ (depth : Nat) (operand : Expr Float) (scope after : Scope Float),
        Expr.evaluate depth operand scope = .ok (.number v) after →
        Expr.evaluate depth (.unary .factorial operand) scope =
          .ok (.number (factorial v)) after) ∧
    ∀ (K : Type) [Field K] [LinearOrder K] [IsStrictOrderedRing K] [FloorRing K] [Functions K]
      (v : Exact K),
      HasFactorial v (factorial v) ∧
      (v.val ≤ 1 → factorial v = 1) ∧
      (1 < v.val → ¬ isIntegral v ∨ v.val ≤ 170 → factorial v = v * factorial (v - 1)) ∧
      (isIntegral v → ∀ result,
        Descends v 1 result ↔ result = naturalFactorial (floorNat v)) := by
  refine ⟨fun v finite => ⟨hasFactorial_of_isFinite finite, ?_⟩, ?_⟩
  · intro depth operand scope after evaluated
    unfold Expr.evaluate at evaluated ⊢
    rw [Expr.evaluateWith, Run.bind_ok evaluated]
    rfl
  · intro K _ _ _ _ _ v
    refine ⟨countsDown_exact.hasFactorial fun _ => trivial, fun low => ?_, fun more small => ?_,
      fun whole result => ?_⟩
    · have bound : v.val ≤ 170 := low.trans (by norm_num)
      exact (descends_factorial (.inr bound)).eq_one low
    · have before : ¬ isIntegral (v - 1) ∨ (v - 1).val ≤ 170 := by
        rcases small with part | bound
        · exact .inl fun whole => part (isIntegral_of_sub_one whole)
        · exact .inr ((sub_le_self _ zero_le_one).trans bound)
      exact (descends_factorial small).eq_mul more (descends_factorial before)
    · have descends := descends_of_isIntegral whole
      exact ⟨fun other => other.unique descends, fun same => same ▸ descends⟩

/-- Two and a half is multiplied by one and a half. Five is whole. -/
theorem factorial_ends_and_agrees_at_fraction :
    (HasFactorial (2.5 : Float) 3.75 ∧
      Expr.evaluate 0 (.unary .factorial (.number (2.5 : Float))) Scope.empty =
        .ok (.number 3.75) Scope.empty) ∧
    factorial (⟨1 / 2⟩ : Exact ℚ) = 1 ∧
    factorial (⟨5 / 2⟩ : Exact ℚ) = ⟨5 / 2⟩ * factorial ⟨3 / 2⟩ ∧
    Descends (⟨5⟩ : Exact ℚ) 1 ⟨120⟩ := by
  obtain ⟨ends, agrees⟩ := factorial_ends_and_agrees
  have value : factorial (2.5 : Float) = 3.75 := by decide +kernel
  obtain ⟨found, evaluated⟩ := ends 2.5 (by decide +kernel)
  rw [value] at found evaluated
  refine ⟨⟨found, evaluated 0 (.number 2.5) .empty .empty rfl⟩, ?_, ?_, ?_⟩
  · exact (agrees ℚ ⟨1 / 2⟩).2.1 (by norm_num)
  · have less : (⟨5 / 2⟩ - 1 : Exact ℚ) = ⟨3 / 2⟩ := Exact.ext (by norm_num)
    have step := (agrees ℚ ⟨5 / 2⟩).2.2.1 (by norm_num) (.inr (by norm_num))
    rwa [less] at step
  · exact ((agrees ℚ ⟨5⟩).2.2.2 (by decide +kernel) ⟨120⟩).mpr (Exact.ext (by decide +kernel))

end Scalar

end IntervalCalc
