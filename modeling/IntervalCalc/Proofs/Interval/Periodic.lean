import IntervalCalc.Proofs.Interval.Arcs
import IntervalCalc.Proofs.Interval.Range

/-!
The sine and the cosine of an interval. Over exact numbers they are the ranges of any function that
rises and falls like a sine, on all intervals: those within a quadrant, those that pass a crest or a
trough, and those that go all the way round.
-/

namespace IntervalCalc

variable {K : Type} [Field K] [LinearOrder K] [FloorRing K] [Functions K]

/-- A function that turns a quarter before zero and a quarter behind it, and repeats itself. -/
structure Functions.Sinusoidal (K : Type) [Field K] [LinearOrder K] [Functions K] : Prop where
  positive : 0 < (pi : K)
  periodic : Function.Periodic (sin : K → K) (2 * pi)
  rises : MonotoneOn (sin : K → K) (Set.Icc (-(pi / 2)) (pi / 2))
  falls : AntitoneOn (sin : K → K) (Set.Icc (pi / 2) (3 * pi / 2))
  crest : sin (pi / 2 : K) = 1
  trough : sin (-(pi / 2) : K) = -1
  zero : sin (0 : K) = 0
  half : sin (pi : K) = 0

namespace Functions.Sinusoidal

variable (h : Sinusoidal K)

include h

/-- The function after some turns. -/
theorem sin_add_turns (k : ℤ) (x : K) : sin (x + 4 * k * quarter K) = sin x := by
  have turns : 4 * (k : K) * quarter K = k * (2 * pi) := by
    rw [pi_eq]
    ring
  rw [turns]
  exact h.periodic.int_mul k x

theorem sin_sub_turns (k : ℤ) (x : K) : sin (x - 4 * k * quarter K) = sin x := by
  rw [← h.sin_add_turns k (x - _), sub_add_cancel]

theorem sin_crest (k : ℤ) : sin ((4 * k + 1) * quarter K) = 1 := by
  have turned : (4 * k + 1) * quarter K - 4 * k * quarter K = pi / 2 := by
    rw [quarter]
    ring
  rw [← h.sin_sub_turns k, turned, h.crest]

theorem sin_trough (k : ℤ) : sin ((4 * k + 3) * quarter K) = -1 := by
  have turned : (4 * k + 3) * quarter K - 4 * ((k + 1 : ℤ) : K) * quarter K = -(pi / 2) := by
    rw [quarter]
    push_cast
    ring
  rw [← h.sin_sub_turns (k + 1), turned, h.trough]

variable [IsStrictOrderedRing K]

omit [FloorRing K] in
theorem quarter_pos : 0 < quarter K :=
  half_pos h.positive

/-- It rises from a trough to the next crest. -/
theorem rises_at (k : ℤ) :
    MonotoneOn (sin : K → K) (Set.Icc ((4 * k - 1) * quarter K) ((4 * k + 1) * quarter K)) := by
  intro x hx y hy le
  have back {z : K} (inside : z ∈ Set.Icc ((4 * k - 1) * quarter K) ((4 * k + 1) * quarter K)) :
      z - 4 * k * quarter K ∈ Set.Icc (-(pi / 2)) (pi / 2) := by
    obtain ⟨low, high⟩ := inside
    rw [pi_eq]
    constructor
    · linarith
    · linarith
  rw [← h.sin_sub_turns k x, ← h.sin_sub_turns k y]
  exact h.rises (back hx) (back hy) (sub_le_sub_right le _)

/-- It falls from a crest to the next trough. -/
theorem falls_at (k : ℤ) :
    AntitoneOn (sin : K → K) (Set.Icc ((4 * k + 1) * quarter K) ((4 * k + 3) * quarter K)) := by
  intro x hx y hy le
  have back {z : K} (inside : z ∈ Set.Icc ((4 * k + 1) * quarter K) ((4 * k + 3) * quarter K)) :
      z - 4 * k * quarter K ∈ Set.Icc (pi / 2) (3 * pi / 2) := by
    obtain ⟨low, high⟩ := inside
    rw [pi_eq]
    constructor
    · linarith
    · linarith
  rw [← h.sin_sub_turns k x, ← h.sin_sub_turns k y]
  exact h.falls (back hx) (back hy) (sub_le_sub_right le _)

/-- Every number lies between two troughs. -/
theorem exists_turn (x : K) :
    ∃ k : ℤ, (4 * k - 1) * quarter K ≤ x ∧ x ≤ (4 * k + 3) * quarter K := by
  have turn : 0 < 4 * quarter K := mul_pos four_pos h.quarter_pos
  obtain ⟨k, ⟨low, high⟩, _⟩ := existsUnique_add_zsmul_mem_Ico turn x (-quarter K)
  rw [zsmul_eq_mul] at low high
  refine ⟨-k, ?_, ?_⟩
  · push_cast
    linarith
  · push_cast
    linarith

/-- A crest between two troughs. -/
theorem ordered (k : ℤ) : (4 * k - 1) * quarter K ≤ (4 * k + 1) * quarter K ∧
    (4 * k + 1) * quarter K ≤ (4 * k + 3) * quarter K := by
  have positive := h.quarter_pos
  constructor
  · linarith
  · linarith

theorem sin_le_one (x : K) : sin x ≤ 1 := by
  obtain ⟨k, low, high⟩ := h.exists_turn x
  obtain ⟨before, behind⟩ := h.ordered k
  rw [← h.sin_crest k]
  rcases le_total x ((4 * k + 1) * quarter K) with le | ge
  · exact h.rises_at k ⟨low, le⟩ ⟨before, le_rfl⟩ le
  · exact h.falls_at k ⟨le_rfl, behind⟩ ⟨ge, high⟩ ge

theorem neg_one_le_sin (x : K) : -1 ≤ sin x := by
  obtain ⟨k, low, high⟩ := h.exists_turn x
  obtain ⟨before, behind⟩ := h.ordered k
  rcases le_total x ((4 * k + 1) * quarter K) with le | ge
  · have trough : sin ((4 * k - 1) * quarter K) = -1 := by
      have same : (4 * k - 1) * quarter K = (4 * ((k - 1 : ℤ) : K) + 3) * quarter K := by
        push_cast
        ring
      rw [same, h.sin_trough]
    rw [← trough]
    exact h.rises_at k ⟨le_rfl, before⟩ ⟨low, le⟩ low
  · rw [← h.sin_trough k]
    exact h.falls_at k ⟨ge, high⟩ ⟨behind, le_rfl⟩ high

section Sweeps

variable {a b : K} (k : ℤ)

theorem sweeps_rise (low : (4 * k - 1) * quarter K ≤ a) (le : a ≤ b)
    (high : b ≤ (4 * k + 1) * quarter K) : Sweeps sin a b (sin a) (sin b) :=
  .rising ((h.rises_at k).mono (Set.Icc_subset_Icc low high)) le

theorem sweeps_fall (low : (4 * k + 1) * quarter K ≤ a) (le : a ≤ b)
    (high : b ≤ (4 * k + 3) * quarter K) : Sweeps sin a b (sin b) (sin a) :=
  .falling ((h.falls_at k).mono (Set.Icc_subset_Icc low high)) le

/-- The way passes a crest. -/
theorem sweeps_crest (low : (4 * k - 1) * quarter K ≤ a) (before : a ≤ (4 * k + 1) * quarter K)
    (behind : (4 * k + 1) * quarter K ≤ b) (high : b ≤ (4 * k + 3) * quarter K) :
    Sweeps sin a b (min (sin a) (sin b)) 1 := by
  have both := (h.sweeps_rise k low before le_rfl).trans (h.sweeps_fall k le_rfl behind high)
  rw [h.sin_crest, max_self] at both
  exact both

/-- The way passes a trough. -/
theorem sweeps_trough (low : (4 * k + 1) * quarter K ≤ a) (before : a ≤ (4 * k + 3) * quarter K)
    (behind : (4 * k + 3) * quarter K ≤ b) (high : b ≤ (4 * k + 5) * quarter K) :
    Sweeps sin a b (-1) (max (sin a) (sin b)) := by
  have rise : Sweeps sin ((4 * k + 3) * quarter K) b (sin ((4 * k + 3) * quarter K)) (sin b) := by
    refine h.sweeps_rise (k + 1) (le_of_eq ?_) behind (high.trans_eq ?_)
    · push_cast
      ring
    · push_cast
      ring
  have both := (h.sweeps_fall k low before le_rfl).trans rise
  rw [h.sin_trough, min_self] at both
  exact both

/-- The way passes a crest and a trough. -/
theorem sweeps_both {k l : ℤ} (crest : (4 * k + 1) * quarter K ∈ Set.Icc a b)
    (trough : (4 * l + 3) * quarter K ∈ Set.Icc a b) : Sweeps sin a b (-1) 1 := by
  have extrema := Sweeps.of_extrema (f := sin) (x := (4 * l + 3) * quarter K)
    (y := (4 * k + 1) * quarter K) ?_ ?_ trough crest
  · rw [h.sin_crest, h.sin_trough] at extrema
    exact extrema
  · intro z
    rw [h.sin_trough]
    exact h.neg_one_le_sin z
  · intro z
    rw [h.sin_crest]
    exact h.sin_le_one z

/-- All the way round. -/
theorem sweeps_round (round : a + 4 * quarter K ≤ b) : Sweeps sin a b (-1) 1 := by
  have turn : 0 < 4 * quarter K := mul_pos four_pos h.quarter_pos
  obtain ⟨k, ⟨low, high⟩, _⟩ := existsUnique_add_zsmul_mem_Ico turn (quarter K) a
  obtain ⟨l, ⟨low', high'⟩, _⟩ := existsUnique_add_zsmul_mem_Ico turn (3 * quarter K) a
  rw [zsmul_eq_mul] at low high low' high'
  refine h.sweeps_both (k := k) (l := l) ⟨?_, ?_⟩ ⟨?_, ?_⟩
  · linarith
  · linarith
  · linarith
  · linarith

end Sweeps

theorem sin_nonneg {x : K} (low : 0 ≤ x) (high : x ≤ 2 * quarter K) : 0 ≤ sin x := by
  have positive := h.quarter_pos
  rcases le_total x (quarter K) with le | ge
  · rw [← h.zero]
    refine h.rises_at 0 ⟨?_, ?_⟩ ⟨?_, ?_⟩ low
    all_goals
      push_cast
      linarith
  · rw [← h.half, pi_eq]
    refine h.falls_at 0 ⟨?_, ?_⟩ ⟨?_, ?_⟩ high
    all_goals
      push_cast
      linarith

theorem sin_nonpos {x : K} (low : 2 * quarter K ≤ x) (high : x ≤ 4 * quarter K) : sin x ≤ 0 := by
  have positive := h.quarter_pos
  rcases le_total x (3 * quarter K) with le | ge
  · rw [← h.half, pi_eq]
    refine h.falls_at 0 ⟨?_, ?_⟩ ⟨?_, ?_⟩ low
    all_goals
      push_cast
      linarith
  · have turned := h.sin_add_turns 1 0
    rw [← h.zero, ← turned]
    refine h.rises_at 1 ⟨?_, ?_⟩ ⟨?_, ?_⟩ ?_
    all_goals
      push_cast
      linarith

end Functions.Sinusoidal

namespace Interval

variable {X : Interval (Exact K)}

theorem sin_turned (h : Functions.Sinusoidal K) {x y : Exact K} {k : ℤ}
    (turned : y.val = x.val + 4 * k * quarter K) : Scalar.sin x = Scalar.sin y := by
  apply Exact.ext
  change Functions.sin x.val = Functions.sin y.val
  rw [turned, h.sin_add_turns]

theorem sin_range_both (sweeps : Sweeps Functions.sin X.inf.val X.sup.val (-1) 1) :
    IsRange Scalar.sin X signRange :=
  .of_sweeps (fun _ => rfl) sweeps

end Interval

variable [IsStrictOrderedRing K]

namespace Interval

variable {X : Interval (Exact K)} (h : Functions.Sinusoidal K)

include h in
/-- Between ends of one quadrant that lie the other way round, there are a crest and a trough. -/
theorem sweeps_of_reversed {arc : Arc (Exact K)} {k : ℤ} (covers : arc.Covers k X)
    (same : arc.startQuadrant = arc.finishQuadrant) (reversed : arc.finish.val < arc.start.val) :
    Sweeps Functions.sin X.inf.val X.sup.val (-1) 1 := by
  have positive := h.quarter_pos
  obtain ⟨hs, hf, inf, ⟨_, ordered⟩ | ⟨sup, _⟩⟩ := covers
  · exact absurd ordered (not_le.mpr reversed)
  · obtain ⟨start, finish, quadrant, other⟩ := arc
    obtain rfl : quadrant = other := same
    cases quadrant with
    | first =>
        obtain ⟨_, _⟩ := hs
        obtain ⟨_, _⟩ := hf
        refine h.sweeps_both (k := k) (l := k) ⟨?_, ?_⟩ ⟨?_, ?_⟩
        all_goals linarith
    | second | third =>
        obtain ⟨_, _⟩ := hs
        obtain ⟨_, _⟩ := hf
        refine h.sweeps_both (k := k + 1) (l := k) ⟨?_, ?_⟩ ⟨?_, ?_⟩
        all_goals
          push_cast
          linarith
    | fourth =>
        obtain ⟨_, _⟩ := hs
        obtain ⟨_, _⟩ := hf
        refine h.sweeps_both (k := k + 1) (l := k + 1) ⟨?_, ?_⟩ ⟨?_, ?_⟩
        all_goals
          push_cast
          linarith

include h in
/-- Without an arc, an interval passes a crest and a trough. -/
theorem sweeps_of_arc_none (le : X.inf.val ≤ X.sup.val) (none : X.arc? = none) :
    Sweeps Functions.sin X.inf.val X.sup.val (-1) 1 := by
  rcases le_or_gt (4 * quarter K) (X.sup.val - X.inf.val) with wide | narrow
  · exact h.sweeps_round (le_sub_iff_add_le'.mp wide)
  · obtain ⟨k, covers⟩ := ends_covers h.quarter_pos le narrow
    rw [arc?_of_narrow narrow] at none
    split at none
    next reversed => exact sweeps_of_reversed h covers reversed.1 reversed.2
    · cases none

include h in
theorem sin_nonneg_of_turned {x y : Exact K} (same : Scalar.sin x = Scalar.sin y)
    (low : 0 ≤ x.val) (high : x.val ≤ 2 * quarter K) : 0 ≤ (Scalar.sin y).val := by
  rw [← same]
  exact h.sin_nonneg low high

include h in
theorem sin_nonpos_of_turned {x y : Exact K} (same : Scalar.sin x = Scalar.sin y)
    (low : 2 * quarter K ≤ x.val) (high : x.val ≤ 4 * quarter K) : (Scalar.sin y).val ≤ 0 := by
  rw [← same]
  exact h.sin_nonpos low high

section Courses

variable (k : ℤ)

include h

theorem sin_range_rise (low : (4 * k - 1) * quarter K ≤ X.inf.val) (le : X.inf.val ≤ X.sup.val)
    (high : X.sup.val ≤ (4 * k + 1) * quarter K) :
    IsRange Scalar.sin X (between (Scalar.sin X.inf) (Scalar.sin X.sup)) :=
  .between (fun _ => rfl) (h.sweeps_rise k low le high)

theorem sin_range_fall (low : (4 * k + 1) * quarter K ≤ X.inf.val) (le : X.inf.val ≤ X.sup.val)
    (high : X.sup.val ≤ (4 * k + 3) * quarter K) :
    IsRange Scalar.sin X (between (Scalar.sin X.sup) (Scalar.sin X.inf)) :=
  .between (fun _ => rfl) (h.sweeps_fall k low le high)

theorem sin_range_crest (low : (4 * k - 1) * quarter K ≤ X.inf.val)
    (before : X.inf.val ≤ (4 * k + 1) * quarter K) (behind : (4 * k + 1) * quarter K ≤ X.sup.val)
    (high : X.sup.val ≤ (4 * k + 3) * quarter K) :
    IsRange Scalar.sin X (between (Scalar.min (Scalar.sin X.inf) (Scalar.sin X.sup)) 1) := by
  have sweeps := h.sweeps_crest k low before behind high
  refine .between (fun _ => rfl) ?_
  rw [Exact.val_min]
  exact sweeps

theorem sin_range_trough (low : (4 * k + 1) * quarter K ≤ X.inf.val)
    (before : X.inf.val ≤ (4 * k + 3) * quarter K) (behind : (4 * k + 3) * quarter K ≤ X.sup.val)
    (high : X.sup.val ≤ (4 * k + 5) * quarter K) :
    IsRange Scalar.sin X (between (-1) (Scalar.max (Scalar.sin X.inf) (Scalar.sin X.sup))) := by
  have sweeps := h.sweeps_trough k low before behind high
  refine .between (fun _ => rfl) ?_
  rw [Exact.val_max]
  exact sweeps

end Courses

section Arcs

variable {start finish : Exact K} {starts finishes : Quadrant} {k : ℤ}

include h

/-- The range on an arc that does not pass the beginning of the circle. -/
theorem sin_range_forward (found : X.arc? = some ⟨start, finish, starts, finishes⟩)
    (hs : starts.Holds start.val) (hf : finishes.Holds finish.val)
    (inf : X.inf.val = start.val + 4 * k * quarter K)
    (sup : X.sup.val = finish.val + 4 * k * quarter K) (ordered : start.val ≤ finish.val) :
    IsRange Scalar.sin X X.sin := by
  have positive := h.quarter_pos
  have at_start := sin_turned h inf
  have at_finish := sin_turned h sup
  rw [Interval.sin, found]
  dsimp only
  rw [at_start, at_finish]
  cases starts with
  | first =>
      obtain ⟨_, _⟩ := hs
      cases finishes with
      | first =>
          obtain ⟨_, _⟩ := hf
          exact sin_range_rise h k (by linarith) (by linarith) (by linarith)
      | second =>
          obtain ⟨_, _⟩ := hf
          exact sin_range_crest h k (by linarith) (by linarith) (by linarith) (by linarith)
      | third =>
          obtain ⟨_, _⟩ := hf
          have above := sin_nonneg_of_turned h at_start (by linarith) (by linarith)
          have below := sin_nonpos_of_turned h at_finish (by linarith) (by linarith)
          rw [← Exact.min_eq_right (below.trans above)]
          exact sin_range_crest h k (by linarith) (by linarith) (by linarith) (by linarith)
      | fourth =>
          obtain ⟨_, _⟩ := hf
          refine sin_range_both (h.sweeps_both (k := k) (l := k) ⟨?_, ?_⟩ ⟨?_, ?_⟩)
          all_goals linarith
  | second =>
      obtain ⟨_, _⟩ := hs
      cases finishes with
      | first =>
          obtain ⟨_, _⟩ := hf
          linarith
      | second | third =>
          obtain ⟨_, _⟩ := hf
          exact sin_range_fall h k (by linarith) (by linarith) (by linarith)
      | fourth =>
          obtain ⟨_, _⟩ := hf
          have above := sin_nonneg_of_turned h at_start (by linarith) (by linarith)
          have below := sin_nonpos_of_turned h at_finish (by linarith) (by linarith)
          rw [← Exact.max_eq_left (below.trans above)]
          exact sin_range_trough h k (by linarith) (by linarith) (by linarith) (by linarith)
  | third =>
      obtain ⟨_, _⟩ := hs
      cases finishes with
      | first | second =>
          obtain ⟨_, _⟩ := hf
          linarith
      | third =>
          obtain ⟨_, _⟩ := hf
          exact sin_range_fall h k (by linarith) (by linarith) (by linarith)
      | fourth =>
          obtain ⟨_, _⟩ := hf
          exact sin_range_trough h k (by linarith) (by linarith) (by linarith) (by linarith)
  | fourth =>
      obtain ⟨_, _⟩ := hs
      cases finishes with
      | first | second | third =>
          obtain ⟨_, _⟩ := hf
          linarith
      | fourth =>
          obtain ⟨_, _⟩ := hf
          refine sin_range_rise h (k + 1) ?_ (by linarith) ?_
          all_goals
            push_cast
            linarith

/-- The range on an arc that passes the beginning of the circle, between two quadrants. -/
theorem sin_range_passing (found : X.arc? = some ⟨start, finish, starts, finishes⟩)
    (hs : starts.Holds start.val) (hf : finishes.Holds finish.val)
    (inf : X.inf.val = start.val + 4 * k * quarter K)
    (sup : X.sup.val = finish.val + 4 * (k + 1) * quarter K) (reversed : finish.val < start.val)
    (apart : starts ≠ finishes) : IsRange Scalar.sin X X.sin := by
  have positive := h.quarter_pos
  have at_start := sin_turned h inf
  have turned : X.sup.val = finish.val + 4 * ((k + 1 : ℤ) : K) * quarter K := by
    push_cast
    exact sup
  have at_finish := sin_turned h turned
  rw [Interval.sin, found]
  dsimp only
  rw [at_start, at_finish]
  cases starts with
  | first =>
      obtain ⟨_, _⟩ := hs
      cases finishes with
      | first => exact absurd rfl apart
      | second | third | fourth =>
          obtain ⟨_, _⟩ := hf
          linarith
  | second =>
      obtain ⟨_, _⟩ := hs
      cases finishes with
      | first =>
          obtain ⟨_, _⟩ := hf
          exact sin_range_trough h k (by linarith) (by linarith) (by linarith) (by linarith)
      | second => exact absurd rfl apart
      | third | fourth =>
          obtain ⟨_, _⟩ := hf
          linarith
  | third =>
      obtain ⟨_, _⟩ := hs
      cases finishes with
      | first =>
          obtain ⟨_, _⟩ := hf
          have below := sin_nonpos_of_turned h at_start (by linarith) (by linarith)
          have above := sin_nonneg_of_turned h at_finish (by linarith) (by linarith)
          rw [← Exact.max_eq_right (below.trans above)]
          exact sin_range_trough h k (by linarith) (by linarith) (by linarith) (by linarith)
      | second =>
          obtain ⟨_, _⟩ := hf
          refine sin_range_both (h.sweeps_both (k := k + 1) (l := k) ⟨?_, ?_⟩ ⟨?_, ?_⟩)
          all_goals
            push_cast
            linarith
      | third => exact absurd rfl apart
      | fourth =>
          obtain ⟨_, _⟩ := hf
          linarith
  | fourth =>
      obtain ⟨_, _⟩ := hs
      cases finishes with
      | first =>
          obtain ⟨_, _⟩ := hf
          refine sin_range_rise h (k + 1) ?_ (by linarith) ?_
          all_goals
            push_cast
            linarith
      | second =>
          obtain ⟨_, _⟩ := hf
          have below := sin_nonpos_of_turned h at_start (by linarith) (by linarith)
          have above := sin_nonneg_of_turned h at_finish (by linarith) (by linarith)
          rw [← Exact.min_eq_left (below.trans above)]
          refine sin_range_crest h (k + 1) ?_ ?_ ?_ ?_
          all_goals
            push_cast
            linarith
      | third =>
          obtain ⟨_, _⟩ := hf
          refine sin_range_crest h (k + 1) ?_ ?_ ?_ ?_
          all_goals
            push_cast
            linarith
      | fourth => exact absurd rfl apart

end Arcs

theorem sin_range (h : Functions.Sinusoidal K) (le : X.inf.val ≤ X.sup.val) :
    IsRange Scalar.sin X X.sin := by
  cases found : X.arc? with
  | none =>
      rw [Interval.sin, found]
      exact sin_range_both (sweeps_of_arc_none h le found)
  | some arc =>
      obtain ⟨k, ⟨hs, hf, inf, ⟨sup, ordered⟩ | ⟨sup, reversed⟩⟩, apart⟩ :=
        covers_of_arc_some h.quarter_pos le found
      · exact sin_range_forward h found hs hf inf sup ordered
      · exact sin_range_passing h found hs hf inf sup reversed
          fun same => absurd (apart same) (not_le.mpr reversed)

/-- The sine of an interval, wherever it lies and however wide it is, is the range of the sine on
it, and its cosine is the range of the sine a quarter turn on. -/
theorem sin_and_cos_exact (h : Functions.Sinusoidal K) (le : X.inf.val ≤ X.sup.val) :
    IsRange Scalar.sin X X.sin ∧
      IsRange (fun x => Scalar.sin (x + Scalar.halfPi)) X X.cos := by
  have bounds : X + point Scalar.halfPi = ⟨X.inf + Scalar.halfPi, X.sup + Scalar.halfPi⟩ :=
    between_of_le (add_le_add_left le _)
  have shifted : (X + point Scalar.halfPi).inf.val ≤ (X + point Scalar.halfPi).sup.val := by
    rw [bounds]
    exact add_le_add_left le _
  exact ⟨sin_range h le, (sin_range h shifted).shifted le Scalar.halfPi⟩

end Interval

theorem Functions.sinusoidal_real : Functions.Sinusoidal ℝ where
  positive := Real.pi_pos
  periodic := Real.sin_periodic
  rises := Real.strictMonoOn_sin.monotoneOn
  falls := by
    have back {x : ℝ} (inside : x ∈ Set.Icc (Real.pi / 2) (3 * Real.pi / 2)) :
        x - Real.pi / 2 ∈ Set.Icc 0 Real.pi := by
      obtain ⟨low, high⟩ := inside
      constructor
      · linarith
      · linarith
    intro x hx y hy le
    change Real.sin y ≤ Real.sin x
    rw [← Real.cos_sub_pi_div_two, ← Real.cos_sub_pi_div_two]
    exact Real.strictAntiOn_cos.antitoneOn (back hx) (back hy) (sub_le_sub_right le _)
  crest := Real.sin_pi_div_two
  trough := by
    change Real.sin (-(Real.pi / 2)) = -1
    rw [Real.sin_neg, Real.sin_pi_div_two]
  zero := Real.sin_zero
  half := Real.sin_pi

/-- An interval that passes the beginning of the circle and a crest behind it. -/
theorem Interval.sin_and_cos_exact_around_zero :
    let X : Interval (Exact ℝ) := ⟨⟨-1⟩, ⟨3⟩⟩
    Functions.Sinusoidal ℝ ∧ X.inf.val ≤ X.sup.val ∧ IsRange Scalar.sin X X.sin ∧
      IsRange (fun x => Scalar.sin (x + Scalar.halfPi)) X X.cos := by
  intro X
  have le : X.inf.val ≤ X.sup.val := by norm_num [X]
  exact ⟨Functions.sinusoidal_real, le, sin_and_cos_exact Functions.sinusoidal_real le⟩

end IntervalCalc
