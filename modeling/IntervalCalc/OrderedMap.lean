/-! Finite maps that remember the order in which their keys arrived. -/

namespace IntervalCalc

/-- Pairs of a key and its value. No two keys are equal. -/
structure OrderedMap (κ ν : Type) where
  entries : List (κ × ν)
deriving DecidableEq

namespace OrderedMap

variable {κ ν : Type} [BEq κ]

def empty : OrderedMap κ ν :=
  ⟨[]⟩

def find? (map : OrderedMap κ ν) (key : κ) : Option ν :=
  map.entries.lookup key

def contains (map : OrderedMap κ ν) (key : κ) : Bool :=
  (map.find? key).isSome

/-- Binds a key. A key that is present keeps its place and its own form, and a new one goes to
the end. -/
def insert (map : OrderedMap κ ν) (key : κ) (value : ν) : OrderedMap κ ν :=
  if map.contains key then
    ⟨map.entries.map fun entry => if entry.1 == key then (entry.1, value) else entry⟩
  else ⟨map.entries ++ [(key, value)]⟩

/-- Removes a key. The later ones move up. -/
def erase (map : OrderedMap κ ν) (key : κ) : OrderedMap κ ν :=
  ⟨map.entries.filter fun entry => !(entry.1 == key)⟩

omit [BEq κ]

def keys (map : OrderedMap κ ν) : List κ :=
  map.entries.map (·.1)

def size (map : OrderedMap κ ν) : Nat :=
  map.entries.length

def isEmpty (map : OrderedMap κ ν) : Bool :=
  map.entries.isEmpty

variable [BEq κ]

/-- A key that is present keeps its place, and a new one goes to the end. -/
theorem keys_insert (map : OrderedMap κ ν) (key : κ) (value : ν) :
    (map.insert key value).keys = if map.contains key then map.keys else map.keys ++ [key] := by
  unfold insert
  split
  · simp only [keys, List.map_map]
    apply List.map_congr_left
    intro entry _
    simp only [Function.comp]
    split <;> rfl
  · simp only [keys, List.map_append, List.map_cons, List.map_nil]

@[simp] theorem find?_empty (k : κ) : (empty : OrderedMap κ ν).find? k = none := rfl

/-- Exactly the keys have a value. -/
theorem isSome_find? (map : OrderedMap κ ν) (k : κ) :
    (map.find? k).isSome ↔ ∃ key ∈ map.keys, k == key := by
  unfold find? keys
  induction map.entries with
  | nil => simp
  | cons entry rest ih =>
    obtain ⟨head, value⟩ := entry
    rw [List.lookup_cons, List.map_cons]
    cases same : k == head with
    | true => simp [same]
    | false => simp [same, ih]

theorem mem_of_find? [LawfulBEq κ] {map : OrderedMap κ ν} {key : κ} {value : ν}
    (found : map.find? key = some value) : (key, value) ∈ map.entries := by
  obtain ⟨before, after, entries, _⟩ := List.lookup_eq_some_iff.mp found
  rw [entries]
  exact List.mem_append_right before List.mem_cons_self

theorem mem_keys_of_find? [LawfulBEq κ] {map : OrderedMap κ ν} {key : κ} {value : ν}
    (found : map.find? key = some value) : key ∈ map.keys :=
  List.mem_map_of_mem (mem_of_find? found)

variable [EquivBEq κ]

/-- Equal keys have the same value. -/
theorem lookup_congr {k k' : κ} (same : k == k') (entries : List (κ × ν)) :
    entries.lookup k = entries.lookup k' := by
  induction entries with
  | nil => rfl
  | cons entry rest ih =>
    obtain ⟨head, value⟩ := entry
    simp only [List.lookup_cons, BEq.congr_left same, ih]

theorem lookup_replace (entries : List (κ × ν)) (key k : κ) (value : ν) :
    (entries.map fun entry => if entry.1 == key then (entry.1, value) else entry).lookup k =
      if k == key then (entries.lookup k).map fun _ => value else entries.lookup k := by
  induction entries with
  | nil => simp
  | cons entry rest ih =>
    obtain ⟨head, old⟩ := entry
    by_cases hk : k == head
    · have same : (head == key) = (k == key) := (BEq.congr_left hk).symm
      by_cases hh : k == key <;> simp [List.lookup_cons, same, hk, hh]
    · by_cases hh : head == key <;> simp [List.lookup_cons, hk, hh, ih]

theorem lookup_filter (entries : List (κ × ν)) (key k : κ) :
    (entries.filter fun entry => !(entry.1 == key)).lookup k =
      if k == key then none else entries.lookup k := by
  induction entries with
  | nil => simp
  | cons entry rest ih =>
    obtain ⟨head, old⟩ := entry
    by_cases hk : k == head
    · have same : (head == key) = (k == key) := (BEq.congr_left hk).symm
      by_cases hh : k == key <;> simp [List.lookup_cons, same, hk, hh, ih]
    · by_cases hh : head == key <;> simp [List.lookup_cons, hk, hh, ih]

/-- Inserting binds the key and leaves every other look-up alone. -/
theorem find?_insert (map : OrderedMap κ ν) (key k : κ) (value : ν) :
    (map.insert key value).find? k = if k == key then some value else map.find? k := by
  by_cases present : map.contains key
  · simp only [insert, present, if_true, find?, lookup_replace]
    by_cases same : k == key
    · obtain ⟨old, found⟩ := Option.isSome_iff_exists.mp present
      simp only [same, if_true, lookup_congr same]
      rw [show map.entries.lookup key = some old from found]
      rfl
    · simp only [same, if_false, Bool.false_eq_true]
  · simp only [insert, present, if_false, Bool.false_eq_true, find?, List.lookup_append,
      List.lookup_cons, List.lookup_nil]
    by_cases same : k == key
    · have absent : map.entries.lookup key = none :=
        Option.not_isSome_iff_eq_none.mp present
      simp only [same, if_true, lookup_congr same, absent, Option.none_or]
    · simp only [same, if_false, Bool.false_eq_true, Option.or_none]

/-- Removing unbinds the key and leaves every other look-up alone. -/
theorem find?_erase (map : OrderedMap κ ν) (key k : κ) :
    (map.erase key).find? k = if k == key then none else map.find? k :=
  lookup_filter map.entries key k

end OrderedMap

end IntervalCalc
