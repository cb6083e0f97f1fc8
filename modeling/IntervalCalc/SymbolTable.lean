import IntervalCalc.OrderedMap
import IntervalCalc.Symbol

/-!
Symbols kept in a map that is read both ways. The handle of a new name is the number of names so
far, as long as there are handles.
-/

namespace IntervalCalc

/-- The number of handles. A handle has 32 bits. -/
def handleCount : Nat :=
  1 <<< 32

/-- A map between names and handles that is read both ways, by what can be done with a state of
it. -/
structure TwoWayMap (σ : Type) where
  empty : σ
  insert : σ → String → Nat → σ
  handle? : σ → String → Option Nat
  name? : σ → Nat → Option String
  size : σ → Nat

namespace TwoWayMap

variable {σ : Type} (map : TwoWayMap σ)

/-- What a map that is read both ways promises. A new pair drives out those that share its name or
its handle. -/
structure Lawful : Prop where
  handle?_empty (name : String) : map.handle? map.empty name = none
  name?_empty (handle : Nat) : map.name? map.empty handle = none
  size_empty : map.size map.empty = 0
  handle?_insert (state : σ) (name : String) (handle : Nat) (other : String) :
    map.handle? (map.insert state name handle) other =
      if other = name then some handle else (map.handle? state other).filter (· ≠ handle)
  name?_insert (state : σ) (name : String) (handle other : Nat) :
    map.name? (map.insert state name handle) other =
      if other = handle then some name else (map.name? state other).filter (· ≠ name)
  size_insert (state : σ) (name : String) (handle : Nat) : map.handle? state name = none →
    map.name? state handle = none → map.size (map.insert state name handle) = map.size state + 1

/-- The handle of the next name. When all handles are taken the last one is given again. -/
def nextHandle (state : σ) : Nat :=
  min (map.size state) (handleCount - 1)

def resolve (state : σ) (id : Nat) : Option Symbol :=
  (map.name? state id).map fun name => ⟨id, name⟩

def lookup (state : σ) (name : String) : Option Symbol :=
  (map.handle? state name).bind (map.resolve state)

def intern (state : σ) (name : String) : Symbol × σ :=
  match map.lookup state name with
  | some symbol => (symbol, state)
  | none =>
    let id := map.nextHandle state
    (⟨id, name⟩, map.insert state name id)

end TwoWayMap

/-- Leaving out a value that is not there changes nothing. -/
theorem filter_ne_of_ne_some {β : Type} [DecidableEq β] {found : Option β} {value : β}
    (absent : found ≠ some value) : found.filter (· ≠ value) = found := by
  cases found with
  | none => rfl
  | some other =>
      rw [Ne, Option.some.injEq] at absent
      rw [Option.filter_some, if_pos (decide_eq_true absent)]

/-- Two maps that undo each other. -/
structure PairMap (κ ν : Type) [DecidableEq κ] [DecidableEq ν] where
  forth : OrderedMap κ ν
  back : OrderedMap ν κ
  inverse (key : κ) (value : ν) : forth.find? key = some value ↔ back.find? value = some key

namespace PairMap

variable {κ ν : Type} [DecidableEq κ] [DecidableEq ν]

def empty : PairMap κ ν :=
  ⟨.empty, .empty, by simp⟩

def swap (pairs : PairMap κ ν) : PairMap ν κ :=
  ⟨pairs.back, pairs.forth, fun value key => (pairs.inverse key value).symm⟩

/-- The map without the pair of a value. -/
def without (pairs : PairMap κ ν) (value : ν) : OrderedMap κ ν :=
  match pairs.back.find? value with
  | some key => pairs.forth.erase key
  | none => pairs.forth

theorem find?_without (pairs : PairMap κ ν) (value : ν) (key : κ) :
    (pairs.without value).find? key = (pairs.forth.find? key).filter (· ≠ value) := by
  unfold without
  cases owner : pairs.back.find? value with
  | none =>
      refine (filter_ne_of_ne_some fun found => ?_).symm
      rw [(pairs.inverse key value).mp found] at owner
      cases owner
  | some old =>
      dsimp only
      rw [OrderedMap.find?_erase]
      by_cases same : key = old
      · rw [same, (pairs.inverse old value).mpr owner]
        simp [Option.filter_some]
      · rw [if_neg (by simpa using same)]
        refine (filter_ne_of_ne_some fun found => same ?_).symm
        rw [(pairs.inverse key value).mp found] at owner
        exact Option.some.inj owner

/-- Adds a pair, without those that share its key or its value. -/
def insert (pairs : PairMap κ ν) (key : κ) (value : ν) : PairMap κ ν where
  forth := (pairs.without value).insert key value
  back := (pairs.swap.without key).insert value key
  inverse other found := by
    simp only [OrderedMap.find?_insert, find?_without, beq_iff_eq, swap]
    by_cases first : other = key <;> by_cases second : found = value
    · simp [first, second]
    · simp [first, second, Ne.symm second]
    · simp [first, second, Ne.symm first]
    · simp [first, second, pairs.inverse other found]

/-- The pairs as a map between names and handles. -/
def table : TwoWayMap (PairMap String Nat) where
  empty := .empty
  insert := insert
  handle? pairs := pairs.forth.find?
  name? pairs := pairs.back.find?
  size pairs := pairs.forth.size

theorem lawful_table : table.Lawful where
  handle?_empty _ := rfl
  name?_empty _ := rfl
  size_empty := rfl
  handle?_insert pairs name handle other := by
    simp only [table, insert, OrderedMap.find?_insert, find?_without, beq_iff_eq]
  name?_insert pairs name handle other := by
    simp only [table, insert, OrderedMap.find?_insert, find?_without, beq_iff_eq, swap]
  size_insert pairs name handle fresh unused := by
    change pairs.forth.find? name = none at fresh
    change pairs.back.find? handle = none at unused
    change (((pairs.without handle).insert name handle).size = pairs.forth.size + 1)
    rw [without, unused, OrderedMap.insert, OrderedMap.contains, fresh]
    simp [OrderedMap.size]

end PairMap

end IntervalCalc
