import IntervalCalc.Proofs.Interval.Range

/-!
The ranges of the four operations. Over exact numbers the sum, the difference, the product and the
quotient of two intervals hold the results on all numbers of the operands, and no smaller interval
does: each of their bounds is the result on two bounds.
-/

namespace IntervalCalc.Interval

section Corners

variable {K : Type} [LinearOrder K] (g : K → K → K) (X Y : Interval (Exact K))

/-- The four values of an operation on bounds. -/
def corners : List K :=
  [g X.inf.val Y.inf.val, g X.inf.val Y.sup.val, g X.sup.val Y.inf.val, g X.sup.val Y.sup.val]

def leastCorner : K :=
  min (min (g X.inf.val Y.inf.val) (g X.inf.val Y.sup.val))
    (min (g X.sup.val Y.inf.val) (g X.sup.val Y.sup.val))

def greatestCorner : K :=
  max (max (g X.inf.val Y.inf.val) (g X.inf.val Y.sup.val))
    (max (g X.sup.val Y.inf.val) (g X.sup.val Y.sup.val))

theorem leastCorner_mem : leastCorner g X Y ∈ corners g X Y := by
  refine min_rec' (· ∈ corners g X Y) (min_rec' (· ∈ corners g X Y) ?_ ?_)
    (min_rec' (· ∈ corners g X Y) ?_ ?_)
  all_goals simp [corners]

theorem greatestCorner_mem : greatestCorner g X Y ∈ corners g X Y := by
  refine max_rec' (· ∈ corners g X Y) (max_rec' (· ∈ corners g X Y) ?_ ?_)
    (max_rec' (· ∈ corners g X Y) ?_ ?_)
  all_goals simp [corners]

theorem leastCorner_le_greatestCorner : leastCorner g X Y ≤ greatestCorner g X Y :=
  ((min_le_left _ _).trans (min_le_left _ _)).trans ((le_max_left _ _).trans (le_max_left _ _))

end Corners

variable {K : Type} [Field K] [LinearOrder K] [FloorRing K] [Functions K]
variable {X Y Z : Interval (Exact K)} {f : Exact K → Exact K → Exact K} {g : K → K → K}

/-- An interval that holds the values of an operation on two others, and no smaller one does: its
bounds are values. -/
structure IsRange₂ (f : Exact K → Exact K → Exact K) (X Y Z : Interval (Exact K)) : Prop where
  encloses : ∀ x ∈ X, ∀ y ∈ Y, f x y ∈ Z
  low : ∃ x ∈ X, ∃ y ∈ Y, f x y = Z.inf
  high : ∃ x ∈ X, ∃ y ∈ Y, f x y = Z.sup

section Bounds

variable (hx : X.inf.val ≤ X.sup.val) (hy : Y.inf.val ≤ Y.sup.val)
variable (same : ∀ x y, (f x y).val = g x.val y.val)

include hx hy same

/-- A value on bounds is a value. -/
theorem exists_of_mem_corners {z : Exact K} (corner : z.val ∈ corners g X Y) :
    ∃ x ∈ X, ∃ y ∈ Y, f x y = z := by
  simp only [corners, List.mem_cons, List.not_mem_nil, or_false] at corner
  rcases corner with found | found | found | found
  · exact ⟨X.inf, inf_mem hx, Y.inf, inf_mem hy, Exact.ext ((same _ _).trans found.symm)⟩
  · exact ⟨X.inf, inf_mem hx, Y.sup, sup_mem hy, Exact.ext ((same _ _).trans found.symm)⟩
  · exact ⟨X.sup, sup_mem hx, Y.inf, inf_mem hy, Exact.ext ((same _ _).trans found.symm)⟩
  · exact ⟨X.sup, sup_mem hx, Y.sup, sup_mem hy, Exact.ext ((same _ _).trans found.symm)⟩

/-- The extremes of the values on bounds are the bounds of a range if nothing lies beyond them. -/
theorem IsRange₂.of_corners (encloses : ∀ x ∈ X, ∀ y ∈ Y, f x y ∈ Z)
    (low : Z.inf.val = leastCorner g X Y) (high : Z.sup.val = greatestCorner g X Y) :
    IsRange₂ f X Y Z where
  encloses := encloses
  low := exists_of_mem_corners hx hy same (low ▸ leastCorner_mem g X Y)
  high := exists_of_mem_corners hx hy same (high ▸ greatestCorner_mem g X Y)

end Bounds

theorem recip_of_mem (zero : 0 ∈ Y) : Y.recip = .error (.containsZero Y) := by
  obtain ⟨low, high⟩ := mem_iff.mp zero
  unfold recip
  rw [if_neg]
  rintro (positive | negative)
  · exact absurd ((Exact.lt_iff 0 Y.inf).mp positive) (not_lt.mpr low)
  · exact absurd ((Exact.lt_iff Y.sup 0).mp negative) (not_lt.mpr high)

/-- An interval without zero lies on one side of it. -/
theorem apart_of_not_mem (nonzero : 0 ∉ Y) : 0 < Y.inf ∨ Y.sup < 0 := by
  by_contra neither
  obtain ⟨low, high⟩ := not_or.mp neither
  exact nonzero (mem_iff.mpr ⟨not_lt.mp low, not_lt.mp high⟩)

variable [IsStrictOrderedRing K]

/-- The reciprocal of an interval without zero has the reciprocals of the bounds, in reverse. -/
theorem recip_of_not_mem (hy : Y.inf.val ≤ Y.sup.val) (nonzero : 0 ∉ Y) :
    Y.recip = .ok ⟨1 / Y.sup, 1 / Y.inf⟩ := by
  have apart := apart_of_not_mem nonzero
  have ordered : 1 / Y.sup.val ≤ 1 / Y.inf.val := by
    rcases apart with positive | negative
    · exact one_div_le_one_div_of_le positive hy
    · exact one_div_le_one_div_of_neg_of_le negative hy
  unfold recip
  rw [if_pos apart]
  exact congrArg Except.ok (between_of_le ordered)

section Operations

variable (hx : X.inf.val ≤ X.sup.val) (hy : Y.inf.val ≤ Y.sup.val)

include hx hy

theorem add_range : IsRange₂ (· + ·) X Y (X + Y) := by
  have bounds : X + Y = ⟨X.inf + Y.inf, X.sup + Y.sup⟩ := between_of_le (add_le_add hx hy)
  refine ⟨fun x inside y inside' => add_mem inside inside', ?_, ?_⟩
  · rw [bounds]
    exact ⟨X.inf, inf_mem hx, Y.inf, inf_mem hy, rfl⟩
  · rw [bounds]
    exact ⟨X.sup, sup_mem hx, Y.sup, sup_mem hy, rfl⟩

theorem sub_range : IsRange₂ (· - ·) X Y (X - Y) := by
  have bounds : X - Y = ⟨X.inf - Y.sup, X.sup - Y.inf⟩ := between_of_le (sub_le_sub hx hy)
  refine ⟨fun x inside y inside' => sub_mem inside inside', ?_, ?_⟩
  · rw [bounds]
    exact ⟨X.inf, inf_mem hx, Y.sup, sup_mem hy, rfl⟩
  · rw [bounds]
    exact ⟨X.sup, sup_mem hx, Y.inf, inf_mem hy, rfl⟩

omit hx hy [IsStrictOrderedRing K] in
theorem mul_eq_corners (X Y : Interval (Exact K)) :
    X * Y = ⟨⟨leastCorner (· * ·) X Y⟩, ⟨greatestCorner (· * ·) X Y⟩⟩ := by
  rw [mul_eq]
  exact between_of_le (leastCorner_le_greatestCorner (· * ·) X Y)

theorem mul_range : IsRange₂ (· * ·) X Y (X * Y) := by
  refine .of_corners (g := (· * ·)) hx hy (fun _ _ => rfl) ?_ ?_ ?_
  · exact fun x inside y inside' => mul_mem inside inside'
  · rw [mul_eq_corners]
  · rw [mul_eq_corners]

omit hx in
/-- A quotient is computed with reciprocals, and its bounds are quotients of bounds all the same. -/
theorem div_eq_corners (nonzero : 0 ∉ Y) :
    X.div Y = .ok ⟨⟨leastCorner (· / ·) X Y⟩, ⟨greatestCorner (· / ·) X Y⟩⟩ := by
  have product : X.div Y = .ok (X * ⟨1 / Y.sup, 1 / Y.inf⟩) := by
    unfold div
    rw [recip_of_not_mem hy nonzero]
    rfl
  have least : leastCorner (· * ·) X ⟨1 / Y.sup, 1 / Y.inf⟩ = leastCorner (· / ·) X Y := by
    simp only [leastCorner, Exact.val_div, Exact.val_one, mul_one_div]
    rw [min_comm (X.inf.val / Y.sup.val), min_comm (X.sup.val / Y.sup.val)]
  have greatest :
      greatestCorner (· * ·) X ⟨1 / Y.sup, 1 / Y.inf⟩ = greatestCorner (· / ·) X Y := by
    simp only [greatestCorner, Exact.val_div, Exact.val_one, mul_one_div]
    rw [max_comm (X.inf.val / Y.sup.val), max_comm (X.sup.val / Y.sup.val)]
  rw [product, mul_eq_corners, least, greatest]

omit hx hy [IsStrictOrderedRing K] in
theorem div_of_mem (zero : 0 ∈ Y) : X.div Y = .error (.containsZero Y) := by
  unfold div
  rw [recip_of_mem zero]
  rfl

theorem div_range (found : X.div Y = .ok Z) (nonzero : 0 ∉ Y) : IsRange₂ (· / ·) X Y Z := by
  have bounds := found
  rw [div_eq_corners hy nonzero] at bounds
  cases bounds
  exact .of_corners (g := (· / ·)) hx hy (fun _ _ => rfl)
    (fun x inside y inside' => div_mem found inside inside') rfl rfl

/-- Sums, differences and products are the ranges of the operations. A quotient fails exactly if
the divisor holds zero, and otherwise it is the range of the division, with the least and the
greatest of the four quotients of bounds. -/
theorem operations_exact :
    IsRange₂ (· + ·) X Y (X + Y) ∧ IsRange₂ (· - ·) X Y (X - Y) ∧ IsRange₂ (· * ·) X Y (X * Y) ∧
      (X.div Y = .error (.containsZero Y) ↔ 0 ∈ Y) ∧
      (0 ∉ Y → ∃ Z, X.div Y = .ok Z ∧ IsRange₂ (· / ·) X Y Z ∧
        Z.inf.val = leastCorner (· / ·) X Y ∧ Z.sup.val = greatestCorner (· / ·) X Y) := by
  refine ⟨add_range hx hy, sub_range hx hy, mul_range hx hy, ⟨fun failed => ?_, div_of_mem⟩, ?_⟩
  · by_contra nonzero
    rw [div_eq_corners hy nonzero] at failed
    cases failed
  · intro nonzero
    have found := div_eq_corners (X := X) hy nonzero
    exact ⟨_, found, div_range hx hy found nonzero, rfl, rfl⟩

end Operations

/-- Zero lies inside of the one operand, and the bounds of the other are both negative. -/
theorem operations_exact_around_zero :
    let X : Interval (Exact ℚ) := ⟨⟨-3⟩, ⟨2⟩⟩
    let Y : Interval (Exact ℚ) := ⟨⟨-4⟩, ⟨-2⟩⟩
    X * Y = ⟨⟨-8⟩, ⟨12⟩⟩ ∧ IsRange₂ (· * ·) X Y (X * Y) ∧
      (Y.div X = .error (.containsZero X) ↔ 0 ∈ X) ∧
      ∃ Z, X.div Y = .ok Z ∧ IsRange₂ (· / ·) X Y Z ∧ Z.inf.val = -1 ∧ Z.sup.val = 3 / 2 := by
  intro X Y
  have hx : X.inf.val ≤ X.sup.val := by norm_num [X]
  have hy : Y.inf.val ≤ Y.sup.val := by norm_num [Y]
  have nonzero : 0 ∉ Y := by
    rw [mem_iff]
    norm_num [Y]
  obtain ⟨_, _, product, _, quotient⟩ := operations_exact hx hy
  obtain ⟨_, _, _, zero, _⟩ := operations_exact hy hx
  obtain ⟨Z, found, range, low, high⟩ := quotient nonzero
  refine ⟨?_, product, zero, Z, found, range, low.trans ?_, high.trans ?_⟩
  · rw [mul_eq_corners]
    norm_num [leastCorner, greatestCorner, X, Y]
  · norm_num [leastCorner, X, Y]
  · norm_num [greatestCorner, X, Y]

end IntervalCalc.Interval
