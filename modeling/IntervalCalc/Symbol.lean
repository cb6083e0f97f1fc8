/-! Names and their handles. -/

namespace IntervalCalc

/-- A name with the handle that it was given. -/
structure Symbol where
  id : Nat
  name : String
deriving DecidableEq

/-- Symbols are compared by their handles alone. -/
instance : BEq Symbol where
  beq a b := a.id == b.id

theorem Symbol.beq_iff {a b : Symbol} : a == b ↔ a.id = b.id := by
  change (a.id == b.id) = true ↔ a.id = b.id
  exact beq_iff_eq

instance : EquivBEq Symbol where
  rfl := Symbol.beq_iff.mpr rfl
  symm h := Symbol.beq_iff.mpr (Symbol.beq_iff.mp h).symm
  trans h h' := Symbol.beq_iff.mpr ((Symbol.beq_iff.mp h).trans (Symbol.beq_iff.mp h'))

/-- The names seen so far. The handle of a name is its place. -/
structure Interner where
  names : List String
deriving DecidableEq

namespace Interner

def empty : Interner :=
  ⟨[]⟩

def lookup (interner : Interner) (name : String) : Option Symbol :=
  (interner.names.idxOf? name).map fun id => ⟨id, name⟩

/-- The symbol of a handle that was given out. -/
def resolve (interner : Interner) (id : Nat) : Option Symbol :=
  interner.names[id]?.map fun name => ⟨id, name⟩

/-- The symbol of a name. A new name gets the next handle. -/
def intern (interner : Interner) (name : String) : Symbol × Interner :=
  match interner.lookup name with
  | some symbol => (symbol, interner)
  | none => (⟨interner.names.length, name⟩, ⟨interner.names ++ [name]⟩)

def size (interner : Interner) : Nat :=
  interner.names.length

def isEmpty (interner : Interner) : Bool :=
  interner.names.isEmpty

variable (interner : Interner) (name : String)

/-- A name that has a handle keeps it, and a new one comes after all others. -/
theorem names_intern :
    (interner.intern name).2.names =
      if name ∈ interner.names then interner.names else interner.names ++ [name] := by
  unfold intern lookup
  by_cases seen : name ∈ interner.names
  · obtain ⟨id, found⟩ := Option.isSome_iff_exists.mp (List.isSome_idxOf?.mpr seen)
    simp only [found, Option.map_some, seen, if_true]
  · simp only [List.idxOf?_eq_none_iff.mpr seen, Option.map_none, seen, if_false]

theorem name_intern : (interner.intern name).1.name = name := by
  unfold intern lookup
  cases interner.names.idxOf? name <;> rfl

/-- After its symbol was asked for, a name has that symbol. -/
theorem lookup_intern :
    (interner.intern name).2.lookup name = some (interner.intern name).1 := by
  unfold intern
  split
  next symbol found => exact found
  next absent =>
    have fresh : name ∉ interner.names :=
      List.idxOf?_eq_none_iff.mp (Option.map_eq_none_iff.mp absent)
    have last : (interner.names ++ [name]).idxOf? name = some interner.names.length := by
      apply List.idxOf?_eq_some_iff.mpr
      refine ⟨by simp, by simp, fun j earlier same => fresh ?_⟩
      rw [List.getElem_append_left earlier] at same
      exact same ▸ List.getElem_mem earlier
    simp only [lookup, last, Option.map_some]

/-- A handle that was given out keeps its name. -/
theorem resolve_intern {id : Nat} {symbol : Symbol} (given : interner.resolve id = some symbol) :
    (interner.intern name).2.resolve id = some symbol := by
  simp only [resolve, Option.map_eq_some_iff] at given ⊢
  obtain ⟨known, place, rfl⟩ := given
  refine ⟨known, ?_, rfl⟩
  rw [names_intern]
  split
  · exact place
  · rw [List.getElem?_append_left (List.getElem?_eq_some_iff.mp place).1, place]

end Interner

end IntervalCalc
