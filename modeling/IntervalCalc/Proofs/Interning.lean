import IntervalCalc.Symbol
import Mathlib.Data.List.Nodup

/-!
Names and handles. An interner that names are only ever added to gives every name one handle and
every handle one name, so among the symbols that it gave out equal handles and equal names are the
same. Two interners that saw other names before give a name different handles, but its two symbols
stand for each other.
-/

namespace IntervalCalc

namespace Interner

/-- No name has two handles. -/
def Distinct (interner : Interner) : Prop :=
  interner.names.Nodup

/-- The interner gave the symbol out: it resolves the handle of the symbol to its name. -/
def Knows (interner : Interner) (symbol : Symbol) : Prop :=
  interner.resolve symbol.id = some symbol

variable {interner : Interner} {symbol other : Symbol} {name : String}

theorem knows_iff : interner.Knows symbol ↔ interner.names[symbol.id]? = some symbol.name := by
  obtain ⟨id, name⟩ := symbol
  unfold Knows resolve
  cases interner.names[id]? with
  | none => simp
  | some found => simp

/-- What is looked up by a name is a known symbol of that name. -/
theorem knows_of_lookup (found : interner.lookup name = some symbol) :
    interner.Knows symbol ∧ symbol.name = name := by
  unfold lookup at found
  obtain ⟨id, place, rfl⟩ := Option.map_eq_some_iff.mp found
  obtain ⟨bound, same, _⟩ := List.idxOf?_eq_some_iff.mp place
  refine ⟨knows_iff.mpr ?_, rfl⟩
  rw [List.getElem?_eq_getElem bound, same]

theorem Knows.mem_names (known : interner.Knows symbol) : symbol.name ∈ interner.names :=
  List.mem_of_getElem? (knows_iff.mp known)

theorem not_mem_of_lookup (missing : interner.lookup name = none) : name ∉ interner.names :=
  List.idxOf?_eq_none_iff.mp (Option.map_eq_none_iff.mp missing)

/-- A handle has one name. -/
theorem Knows.eq_of_id (known : interner.Knows symbol) (known' : interner.Knows other)
    (same : symbol.id = other.id) : symbol = other := by
  unfold Knows at known known'
  rw [same, known'] at known
  exact (Option.some.inj known).symm

/-- A name has one handle. -/
theorem Distinct.eq_of_name (distinct : interner.Distinct) (known : interner.Knows symbol)
    (known' : interner.Knows other) (same : symbol.name = other.name) : symbol = other := by
  obtain ⟨bound, found⟩ := List.getElem?_eq_some_iff.mp (knows_iff.mp known)
  have places := knows_iff.mp known'
  rw [← same, ← found, ← List.getElem?_eq_getElem bound] at places
  exact known.eq_of_id known' ((List.getElem?_inj bound distinct).mp places.symm)

theorem Distinct.beq_iff (distinct : interner.Distinct) (known : interner.Knows symbol)
    (known' : interner.Knows other) : symbol == other ↔ symbol.name = other.name := by
  rw [Symbol.beq_iff]
  constructor
  · intro same
    rw [known.eq_of_id known' same]
  · intro same
    rw [distinct.eq_of_name known known' same]

theorem Distinct.lookup (distinct : interner.Distinct) (known : interner.Knows symbol) :
    interner.lookup symbol.name = some symbol := by
  cases found : interner.lookup symbol.name with
  | none => exact absurd known.mem_names (not_mem_of_lookup found)
  | some other =>
      obtain ⟨known', same⟩ := knows_of_lookup found
      rw [distinct.eq_of_name known' known same]

theorem Distinct.empty : Distinct .empty :=
  List.nodup_nil

theorem Distinct.intern (distinct : interner.Distinct) (name : String) :
    (interner.intern name).2.Distinct := by
  unfold Distinct
  rw [names_intern]
  split
  · exact distinct
  next fresh =>
    rw [← List.concat_eq_append]
    exact List.Nodup.concat fresh distinct

theorem Knows.intern (known : interner.Knows symbol) (name : String) :
    (interner.intern name).2.Knows symbol :=
  interner.resolve_intern name known

theorem knows_intern (interner : Interner) (name : String) :
    (interner.intern name).2.Knows (interner.intern name).1 :=
  (knows_of_lookup (interner.lookup_intern name)).1

/-- A name that was seen keeps its symbol, and asking for it adds nothing. -/
theorem intern_of_lookup (found : interner.lookup name = some symbol) :
    interner.intern name = (symbol, interner) := by
  unfold Interner.intern
  rw [found]

end Interner

/-- A relation of symbols that have the same names, by which they are equal or different alike. -/
structure Symbol.Pairing (R : Symbol → Symbol → Prop) : Prop where
  name {a b : Symbol} : R a b → a.name = b.name
  beq {a b a' b' : Symbol} : R a b → R a' b' → (a == a') = (b == b')

/-- The symbols that two interners give to one name. -/
structure Interner.Namesakes (I J : Interner) (a b : Symbol) : Prop where
  name : a.name = b.name
  left : I.Knows a
  right : J.Knows b

namespace Interner.Namesakes

variable {I J : Interner} {a b : Symbol}

theorem pairing (left : I.Distinct) (right : J.Distinct) : Symbol.Pairing (Namesakes I J) where
  name related := related.name
  beq related related' := by
    rw [Bool.eq_iff_iff, left.beq_iff related.left related'.left,
      right.beq_iff related.right related'.right, related.name, related'.name]

theorem intern (h : Namesakes I J a b) (name : String) :
    Namesakes (I.intern name).2 (J.intern name).2 a b :=
  ⟨h.name, h.left.intern name, h.right.intern name⟩

/-- The symbols of a name that both are asked for. -/
theorem interned (I J : Interner) (name : String) :
    Namesakes (I.intern name).2 (J.intern name).2 (I.intern name).1 (J.intern name).1 := by
  refine ⟨?_, I.knows_intern name, J.knows_intern name⟩
  rw [I.name_intern, J.name_intern]

end Interner.Namesakes

/-- Two interners that have seen more names. Namesakes stay so. -/
structure Interner.Onward (I J I' J' : Interner) : Prop where
  namesakes {a b : Symbol} : Namesakes I J a b → Namesakes I' J' a b
  left : I.Distinct → I'.Distinct
  right : J.Distinct → J'.Distinct

namespace Interner.Onward

variable {I J I' J' I'' J'' : Interner}

theorem refl : Onward I J I J :=
  ⟨id, id, id⟩

theorem trans (h : Onward I J I' J') (h' : Onward I' J' I'' J'') : Onward I J I'' J'' :=
  ⟨fun related => h'.namesakes (h.namesakes related), fun distinct => h'.left (h.left distinct),
    fun distinct => h'.right (h.right distinct)⟩

theorem intern (I J : Interner) (name : String) :
    Onward I J (I.intern name).2 (J.intern name).2 :=
  ⟨fun related => related.intern name, fun distinct => distinct.intern name,
    fun distinct => distinct.intern name⟩

variable (h : Onward I I I' I')

include h

theorem knows {symbol : Symbol} (known : I.Knows symbol) : I'.Knows symbol :=
  (h.namesakes ⟨rfl, known, known⟩).left

/-- Names keep their handles, and new ones come behind them. -/
theorem names : I.names <+: I'.names := by
  refine List.prefix_iff_getElem?.mpr fun id bound => ?_
  have known : I.Knows ⟨id, I.names[id]⟩ := knows_iff.mpr (List.getElem?_eq_getElem bound)
  exact knows_iff.mp (h.knows known)

end Interner.Onward

end IntervalCalc
