import IntervalCalc.Proofs.Interval.Enclosure

/-!
Exact ranges. Over exact numbers an interval is the range of a function on another if it holds the
values there and both of its bounds are among them. Where a function turns, its range on the way is
put together from the ranges before the turn and behind it.
-/

namespace IntervalCalc

section LinearOrder

variable {K L : Type} [LinearOrder K] [LinearOrder L] {f : K → L} {a b c : K}
variable {low high low' high' : L}

/-- The least and the greatest value of a function from one number to another. -/
structure Sweeps (f : K → L) (a b : K) (low high : L) : Prop where
  le : a ≤ b
  least : IsLeast (f '' Set.Icc a b) low
  greatest : IsGreatest (f '' Set.Icc a b) high

namespace Sweeps

theorem rising (monotone : MonotoneOn f (Set.Icc a b)) (le : a ≤ b) :
    Sweeps f a b (f a) (f b) :=
  ⟨le, monotone.map_isLeast (isLeast_Icc le), monotone.map_isGreatest (isGreatest_Icc le)⟩

theorem falling (antitone : AntitoneOn f (Set.Icc a b)) (le : a ≤ b) :
    Sweeps f a b (f b) (f a) :=
  ⟨le, antitone.map_isGreatest (isGreatest_Icc le), antitone.map_isLeast (isLeast_Icc le)⟩

/-- The way to a number and the way on from there. -/
theorem trans (h : Sweeps f a b low high) (h' : Sweeps f b c low' high') :
    Sweeps f a c (min low low') (max high high') := by
  have whole : f '' Set.Icc a c = f '' Set.Icc a b ∪ f '' Set.Icc b c := by
    rw [← Set.image_union, Set.Icc_union_Icc_eq_Icc h.le h'.le]
  refine ⟨h.le.trans h'.le, ?_, ?_⟩
  · rw [whole]
    exact h.least.union h'.least
  · rw [whole]
    exact h.greatest.union h'.greatest

/-- Two numbers on the way, at which the function has the least and the greatest of all values. -/
theorem of_extrema {x y : K} (least : ∀ z, f x ≤ f z) (greatest : ∀ z, f z ≤ f y)
    (hx : x ∈ Set.Icc a b) (hy : y ∈ Set.Icc a b) : Sweeps f a b (f x) (f y) where
  le := hx.1.trans hx.2
  least := ⟨Set.mem_image_of_mem f hx, Set.forall_mem_image.mpr fun z _ => least z⟩
  greatest := ⟨Set.mem_image_of_mem f hy, Set.forall_mem_image.mpr fun z _ => greatest z⟩

theorem low_le_high (h : Sweeps f a b low high) : low ≤ high :=
  h.least.2 h.greatest.1

end Sweeps

end LinearOrder

namespace Interval

variable {K : Type} [Field K] [LinearOrder K] [FloorRing K] [Functions K]
variable {X Y : Interval (Exact K)}

theorem inf_mem (le : X.inf.val ≤ X.sup.val) : X.inf ∈ X :=
  mem_iff.mpr ⟨le_rfl, le⟩

theorem sup_mem (le : X.inf.val ≤ X.sup.val) : X.sup ∈ X :=
  mem_iff.mpr ⟨le, le_rfl⟩

/-- An interval that holds the values of a function on another one, and no smaller one does: its
bounds are values. -/
structure IsRange (f : Exact K → Exact K) (X Y : Interval (Exact K)) : Prop where
  encloses : ∀ x ∈ X, f x ∈ Y
  low : ∃ x ∈ X, f x = Y.inf
  high : ∃ x ∈ X, f x = Y.sup

theorem between_of_le {a b : Exact K} (le : a.val ≤ b.val) : between a b = ⟨a, b⟩ :=
  if_pos ((Exact.le_iff a b).mpr le)

theorem between_of_ge {a b : Exact K} (ge : b.val ≤ a.val) : between a b = ⟨b, a⟩ := by
  rcases ge.lt_or_eq with less | same
  · exact if_neg (mt (Exact.le_iff a b).mp (not_le.mpr less))
  · obtain rfl : b = a := Exact.ext same
    exact between_of_le le_rfl

/-- The ends of an interval may be given in either order. -/
theorem between_comm (a b : Exact K) : between a b = between b a := by
  rcases le_total a.val b.val with le | ge
  · rw [between_of_le le, between_of_ge le]
  · rw [between_of_ge ge, between_of_le ge]

/-- What a function of the field sweeps from bound to bound is its range. -/
theorem IsRange.of_sweeps {f : Exact K → Exact K} {g : K → K} (same : ∀ x, (f x).val = g x.val)
    (h : Sweeps g X.inf.val X.sup.val Y.inf.val Y.sup.val) : IsRange f X Y := by
  have value {y : Exact K} (attained : y.val ∈ g '' Set.Icc X.inf.val X.sup.val) :
      ∃ x ∈ X, f x = y := by
    obtain ⟨x, inside, found⟩ := attained
    exact ⟨⟨x⟩, mem_iff.mpr inside, Exact.ext ((same ⟨x⟩).trans found)⟩
  refine ⟨fun x inside => mem_iff.mpr ?_, value h.least.1, value h.greatest.1⟩
  have between : x.val ∈ Set.Icc X.inf.val X.sup.val := mem_iff.mp inside
  have image := Set.mem_image_of_mem g between
  rw [same]
  exact ⟨h.least.2 image, h.greatest.2 image⟩

theorem IsRange.between {f : Exact K → Exact K} {g : K → K} (same : ∀ x, (f x).val = g x.val)
    {low high : Exact K} (h : Sweeps g X.inf.val X.sup.val low.val high.val) :
    IsRange f X (between low high) := by
  rw [between_of_le h.low_le_high]
  exact .of_sweeps same h

theorem IsRange.le {f : Exact K → Exact K} (h : IsRange f X Y) : Y.inf.val ≤ Y.sup.val := by
  obtain ⟨x, inside, found⟩ := h.low
  have value := h.encloses x inside
  rw [found] at value
  exact (mem_iff.mp value).2

variable [IsStrictOrderedRing K]

theorem neg_eq (le : X.inf.val ≤ X.sup.val) : -X = ⟨-X.sup, -X.inf⟩ :=
  between_of_le (neg_le_neg le)

/-- The negatives of the values have the negatives of the bounds, in reverse. -/
theorem IsRange.neg {f : Exact K → Exact K} (h : IsRange f X Y) :
    IsRange (fun x => -f x) X (-Y) := by
  obtain ⟨low, inside, least⟩ := h.low
  obtain ⟨high, inside', greatest⟩ := h.high
  refine ⟨fun x member => neg_mem (h.encloses x member), ?_, ?_⟩
  · rw [neg_eq h.le]
    exact ⟨high, inside', congrArg (- ·) greatest⟩
  · rw [neg_eq h.le]
    exact ⟨low, inside, congrArg (- ·) least⟩

theorem add_point_eq (le : X.inf.val ≤ X.sup.val) (distance : Exact K) :
    X + point distance = ⟨X.inf + distance, X.sup + distance⟩ :=
  between_of_le (add_le_add_left le distance.val)

/-- The numbers of a shifted interval are the shifted numbers. -/
theorem exists_mem_add_point (le : X.inf.val ≤ X.sup.val) (distance : Exact K)
    {P : Exact K → Prop} :
    (∃ x ∈ X + point distance, P x) ↔ ∃ x ∈ X, P (x + distance) := by
  constructor
  · rintro ⟨x, inside, holds⟩
    rw [add_point_eq le] at inside
    obtain ⟨low, high⟩ := mem_iff.mp inside
    have cancel : x - distance + distance = x := Exact.ext (sub_add_cancel x.val distance.val)
    refine ⟨x - distance, mem_iff.mpr ⟨le_sub_iff_add_le.mpr low, sub_le_iff_le_add.mpr high⟩, ?_⟩
    rwa [cancel]
  · rintro ⟨x, inside, holds⟩
    exact ⟨x + distance, add_mem inside (mem_point distance), holds⟩

/-- The range of a function behind a shift is the range on the shifted interval. -/
theorem IsRange.shifted {f : Exact K → Exact K} (le : X.inf.val ≤ X.sup.val) (distance : Exact K)
    (h : IsRange f (X + point distance) Y) : IsRange (fun x => f (x + distance)) X Y where
  encloses _ inside := h.encloses _ (add_mem inside (mem_point distance))
  low := (exists_mem_add_point le distance).mp h.low
  high := (exists_mem_add_point le distance).mp h.high

end Interval

end IntervalCalc
