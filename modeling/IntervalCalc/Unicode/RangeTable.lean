/-! Character properties as tables of code point ranges. -/

namespace IntervalCalc.Unicode

/-- Closed ranges of code points in ascending order. -/
abbrev RangeTable := List (Nat × Nat)

/-- Whether a code point lies in one of the ranges. The search stops at the first range
that begins beyond it. -/
def RangeTable.contains : RangeTable → Nat → Bool
  | [], _ => false
  | (first, last) :: rest, code =>
    first ≤ code && (code ≤ last || RangeTable.contains rest code)

/-- Every range is nonempty and begins beyond the end of the one before it, at a distance. -/
def RangeTable.ascending : RangeTable → Bool
  | [] => true
  | [(first, last)] => first ≤ last
  | (first, last) :: (next, final) :: rest =>
    first ≤ last && last + 1 < next && RangeTable.ascending ((next, final) :: rest)

def RangeTable.size (table : RangeTable) : Nat :=
  table.foldl (fun size range => size + (range.2 + 1 - range.1)) 0

namespace RangeTable

theorem nonempty_of_ascending {first last : Nat} {rest : RangeTable}
    (ordered : ascending ((first, last) :: rest)) : first ≤ last := by
  cases rest with
  | nil => simpa [ascending] using ordered
  | cons =>
    simp only [ascending, Bool.and_eq_true, decide_eq_true_eq] at ordered
    exact ordered.1.1

theorem ascending_tail {range : Nat × Nat} {rest : RangeTable}
    (ordered : ascending (range :: rest)) : rest.ascending := by
  cases rest with
  | nil => rfl
  | cons =>
    simp only [ascending, Bool.and_eq_true] at ordered
    exact ordered.2

/-- The ranges behind the first one lie beyond it. -/
theorem lt_of_ascending {first last : Nat} {rest : RangeTable}
    (ordered : ascending ((first, last) :: rest)) : ∀ range ∈ rest, last < range.1 := by
  induction rest generalizing first last with
  | nil => simp
  | cons next rest ih =>
    obtain ⟨start, finish⟩ := next
    have tail := ascending_tail ordered
    have nonempty := nonempty_of_ascending tail
    simp only [ascending, Bool.and_eq_true, decide_eq_true_eq] at ordered
    intro range member
    rcases List.mem_cons.mp member with rfl | later
    · exact Nat.lt_of_succ_lt ordered.1.2
    · exact Nat.lt_trans (Nat.lt_of_succ_lt (Nat.lt_of_lt_of_le ordered.1.2 nonempty))
        (ih tail range later)

/-- The early stop loses nothing. -/
theorem contains_iff {table : RangeTable} (ordered : table.ascending) {code : Nat} :
    table.contains code ↔ ∃ range ∈ table, range.1 ≤ code ∧ code ≤ range.2 := by
  induction table with
  | nil => simp [contains]
  | cons range rest ih =>
    obtain ⟨first, last⟩ := range
    simp only [contains, Bool.and_eq_true, Bool.or_eq_true, decide_eq_true_eq,
      ih (ascending_tail ordered), List.mem_cons, exists_eq_or_imp]
    constructor
    · rintro ⟨begins, ends | later⟩
      · exact .inl ⟨begins, ends⟩
      · exact .inr later
    · rintro (inside | ⟨range, member, begins, ends⟩)
      · exact ⟨inside.1, .inl inside.2⟩
      · have beyond := lt_of_ascending ordered range member
        have nonempty := nonempty_of_ascending ordered
        exact ⟨by omega, .inr ⟨range, member, begins, ends⟩⟩

end RangeTable

end IntervalCalc.Unicode
