import Mathlib.Data.List.Induction
import IntervalCalc.Proofs.Interning
import IntervalCalc.SymbolTable

/-!
Symbols in a map that is read both ways. As long as there are handles, a new pair shares neither
its name nor its handle with another one, so nothing is ever driven out of the map, and it answers
like the list of the names in the order in which they came.
-/

namespace IntervalCalc

/-- What an interner is asked for. -/
inductive NameRequest where
  | intern (name : String)
  | lookup (name : String)
  | resolve (id : Nat)

namespace NameRequest

/-- The names that are to be interned, in the order of the requests. -/
def named (requests : List NameRequest) : List String :=
  requests.filterMap fun
    | intern name => some name
    | lookup _ | resolve _ => none

/-- The answers to requests one after the other, and the state behind them. -/
def serve {σ : Type} (answer : σ → NameRequest → Option Symbol × σ) :
    σ → List NameRequest → List (Option Symbol) × σ
  | state, [] => ([], state)
  | state, request :: requests =>
    let (symbol, state) := answer state request
    let (symbols, state) := serve answer state requests
    (symbol :: symbols, state)

theorem serve_append {σ : Type} (answer : σ → NameRequest → Option Symbol × σ) (state : σ)
    (requests later : List NameRequest) :
    (serve answer state (requests ++ later)).2 =
      (serve answer (serve answer state requests).2 later).2 := by
  induction requests generalizing state with
  | nil => rfl
  | cons request requests ih => exact ih (answer state request).2

end NameRequest

open NameRequest (named serve serve_append)

def Interner.answer (interner : Interner) : NameRequest → Option Symbol × Interner
  | .intern name =>
    let (symbol, interner) := interner.intern name
    (some symbol, interner)
  | .lookup name => (interner.lookup name, interner)
  | .resolve id => (interner.resolve id, interner)

def TwoWayMap.answer {σ : Type} (map : TwoWayMap σ) (state : σ) :
    NameRequest → Option Symbol × σ
  | .intern name =>
    let (symbol, state) := map.intern state name
    (some symbol, state)
  | .lookup name => (map.lookup state name, state)
  | .resolve id => (map.resolve state id, state)

namespace Interner

theorem names_prefix_answer (interner : Interner) (request : NameRequest) :
    interner.names <+: (interner.answer request).2.names := by
  cases request with
  | intern name =>
      change interner.names <+: (interner.intern name).2.names
      rw [names_intern]
      split
      · exact List.prefix_rfl
      · exact List.prefix_append _ _
  | lookup | resolve => exact List.prefix_rfl

theorem names_prefix_serve (interner : Interner) (requests : List NameRequest) :
    interner.names <+: (serve answer interner requests).2.names := by
  induction requests generalizing interner with
  | nil => exact List.prefix_rfl
  | cons request requests ih =>
      exact (interner.names_prefix_answer request).trans (ih (interner.answer request).2)

theorem eraseDups_concat (names : List String) (name : String) :
    (names ++ [name]).eraseDups =
      if name ∈ names then names.eraseDups else names.eraseDups ++ [name] := by
  rw [List.eraseDups_append, List.removeAll, List.filter_singleton, List.elem_eq_mem]
  split
  next known => simp [known]
  next fresh => simp [fresh, List.eraseDups_cons]

theorem idxOf?_concat (names : List String) (name other : String) :
    (names ++ [name]).idxOf? other =
      (names.idxOf? other).or (if other = name then some names.length else none) := by
  rw [List.idxOf?, List.findIdx?_append, List.findIdx?_singleton, ← List.idxOf?]
  by_cases same : other = name
  · simp [same]
  · simp [same, Ne.symm same]

/-- An interner keeps the names that it was asked to intern, each where it came first. -/
theorem names_serve (requests : List NameRequest) :
    (serve answer empty requests).2.names = (named requests).eraseDups := by
  induction requests using List.reverseRecOn with
  | nil => rfl
  | append_singleton requests request ih =>
      rw [serve_append, named, List.filterMap_append, ← named]
      generalize (serve answer empty requests).2 = interner at ih ⊢
      cases request with
      | intern name =>
          change (interner.intern name).2.names = (named requests ++ [name]).eraseDups
          simp only [names_intern, eraseDups_concat, ih, List.mem_eraseDups]
      | lookup | resolve =>
          change interner.names = (named requests ++ []).eraseDups
          rw [List.append_nil, ih]

theorem distinct_serve (requests : List NameRequest) :
    (serve answer empty requests).2.Distinct := by
  induction requests using List.reverseRecOn with
  | nil => exact .empty
  | append_singleton requests request ih =>
      rw [serve_append]
      cases request with
      | intern name => exact ih.intern name
      | lookup | resolve => exact ih

theorem lookup_eq_some_iff {interner : Interner} (distinct : interner.Distinct) {name : String}
    {symbol : Symbol} : interner.lookup name = some symbol ↔
      symbol.name = name ∧ interner.resolve symbol.id = some symbol := by
  constructor
  · intro found
    exact (knows_of_lookup found).symm
  · rintro ⟨rfl, known⟩
    exact distinct.lookup known

theorem isSome_lookup (interner : Interner) (name : String) :
    (interner.lookup name).isSome ↔ name ∈ interner.names := by
  rw [lookup, Option.isSome_map, List.isSome_idxOf?]

/-- Names that came later leave a handle its name. -/
theorem resolve_of_prefix {interner interner' : Interner}
    (longer : interner.names <+: interner'.names) {id : Nat} {symbol : Symbol}
    (known : interner.resolve id = some symbol) :
    interner'.resolve id = some symbol := by
  obtain ⟨name, place, same⟩ := Option.map_eq_some_iff.mp known
  obtain ⟨rest, names⟩ := longer
  rw [resolve, ← names, List.getElem?_append_left (List.getElem?_eq_some_iff.mp place).1, place]
  exact congrArg some same

theorem intern_of_fresh {interner : Interner} {name : String} (fresh : name ∉ interner.names) :
    interner.intern name = (⟨interner.names.length, name⟩, ⟨interner.names ++ [name]⟩) := by
  have unknown : interner.lookup name = none := by
    rw [lookup, List.idxOf?_eq_none_iff.mpr fresh]
    rfl
  rw [intern, unknown]

end Interner

namespace TwoWayMap

variable {σ : Type} {map : TwoWayMap σ} {state : σ} {interner : Interner}

/-- A state that holds the names of an interner with their places as handles, and no others. -/
structure Holds (map : TwoWayMap σ) (state : σ) (interner : Interner) : Prop where
  handle? (name : String) : map.handle? state name = interner.names.idxOf? name
  name? (id : Nat) : map.name? state id = interner.names[id]?
  size : map.size state = interner.names.length

theorem Lawful.holds_empty (lawful : map.Lawful) : map.Holds map.empty .empty where
  handle? := lawful.handle?_empty
  name? := lawful.name?_empty
  size := lawful.size_empty

theorem Holds.resolve (h : map.Holds state interner) (id : Nat) :
    map.resolve state id = interner.resolve id := by
  rw [TwoWayMap.resolve, h.name?, Interner.resolve]

theorem Holds.lookup (h : map.Holds state interner) (name : String) :
    map.lookup state name = interner.lookup name := by
  rw [TwoWayMap.lookup, h.handle?, Interner.lookup]
  cases found : interner.names.idxOf? name with
  | none => rfl
  | some id =>
      obtain ⟨bound, same, _⟩ := List.idxOf?_eq_some_iff.mp found
      rw [Option.bind_some, h.resolve, Interner.resolve, List.getElem?_eq_getElem bound, same]
      rfl

/-- A new name goes in without driving another one out, if a handle is left for it. -/
theorem Holds.insert (lawful : map.Lawful) (h : map.Holds state interner) {name : String}
    (fresh : name ∉ interner.names) :
    map.Holds (map.insert state name interner.names.length) ⟨interner.names ++ [name]⟩ where
  handle? other := by
    have older : interner.names.idxOf? other ≠ some interner.names.length := by
      intro found
      obtain ⟨bound, _⟩ := List.idxOf?_eq_some_iff.mp found
      exact Nat.lt_irrefl _ bound
    rw [lawful.handle?_insert, h.handle?, filter_ne_of_ne_some older, Interner.idxOf?_concat]
    split
    next same => rw [same, List.idxOf?_eq_none_iff.mpr fresh, Option.none_or]
    next differs => rw [Option.or_none]
  name? id := by
    have others : interner.names[id]? ≠ some name := fun found =>
      fresh (List.mem_of_getElem? found)
    rw [lawful.name?_insert, h.name?, filter_ne_of_ne_some others]
    split
    next last => rw [last, List.getElem?_concat_length]
    next differs =>
      rcases Nat.lt_or_gt_of_ne differs with before | behind
      · rw [List.getElem?_append_left before]
      · rw [List.getElem?_eq_none (Nat.le_of_lt behind), List.getElem?_eq_none]
        rw [List.length_append, List.length_singleton]
        exact behind
  size := by
    rw [lawful.size_insert, h.size, List.length_append, List.length_singleton]
    · rw [h.handle?, List.idxOf?_eq_none_iff]
      exact fresh
    · exact (h.name? _).trans (List.getElem?_eq_none (Nat.le_refl _))

theorem Holds.intern (lawful : map.Lawful) (h : map.Holds state interner) {name : String}
    (few : (interner.intern name).2.names.length ≤ handleCount) :
    (map.intern state name).1 = (interner.intern name).1 ∧
      map.Holds (map.intern state name).2 (interner.intern name).2 := by
  unfold TwoWayMap.intern Interner.intern
  rw [h.lookup]
  cases found : interner.lookup name with
  | some symbol => exact ⟨rfl, h⟩
  | none =>
      have fresh := Interner.not_mem_of_lookup found
      rw [Interner.names_intern, if_neg fresh, List.length_append, List.length_singleton] at few
      have next : map.nextHandle state = interner.names.length := by
        rw [nextHandle, h.size]
        omega
      dsimp only
      rw [next]
      exact ⟨rfl, h.insert lawful fresh⟩

theorem Holds.answer (lawful : map.Lawful) (h : map.Holds state interner) {request : NameRequest}
    (few : (interner.answer request).2.names.length ≤ handleCount) :
    (map.answer state request).1 = (interner.answer request).1 ∧
      map.Holds (map.answer state request).2 (interner.answer request).2 := by
  cases request with
  | intern name =>
      obtain ⟨same, holds⟩ := h.intern lawful few
      exact ⟨congrArg some same, holds⟩
  | lookup name => exact ⟨h.lookup name, h⟩
  | resolve id => exact ⟨h.resolve id, h⟩

/-- The map gives the answers of the interner as long as the names do not outnumber the handles. -/
theorem Holds.serve (lawful : map.Lawful) {requests : List NameRequest} :
    ∀ {state : σ} {interner : Interner}, map.Holds state interner →
      (NameRequest.serve Interner.answer interner requests).2.names.length ≤ handleCount →
      (NameRequest.serve map.answer state requests).1 =
          (NameRequest.serve Interner.answer interner requests).1 ∧
        map.Holds (NameRequest.serve map.answer state requests).2
          (NameRequest.serve Interner.answer interner requests).2 := by
  induction requests with
  | nil => exact fun h _ => ⟨rfl, h⟩
  | cons request requests ih =>
      intro state interner h few
      have longer := (interner.answer request).2.names_prefix_serve requests
      have fewer := Nat.le_trans longer.length_le few
      obtain ⟨same, holds⟩ := h.answer lawful fewer
      obtain ⟨others, last⟩ := ih holds few
      exact ⟨congrArg₂ List.cons same others, last⟩

variable {state' : σ} {interner' : Interner} {name other : String} {symbol symbol' : Symbol}

theorem Holds.lookup_eq_some_iff (h : map.Holds state interner) (distinct : interner.Distinct) :
    map.lookup state name = some symbol ↔
      symbol.name = name ∧ map.resolve state symbol.id = some symbol := by
  rw [h.lookup, h.resolve, Interner.lookup_eq_some_iff distinct]

theorem Holds.intern_of_fresh (lawful : map.Lawful) (h : map.Holds state interner)
    (fresh : name ∉ interner.names) (room : interner.names.length < handleCount) :
    (map.intern state name).1 = ⟨interner.names.length, name⟩ := by
  have interned := Interner.intern_of_fresh fresh
  have few : (interner.intern name).2.names.length ≤ handleCount := by
    rw [interned, List.length_append, List.length_singleton]
    exact room
  rw [(h.intern lawful few).1, interned]

theorem Holds.resolve_later (h : map.Holds state interner) (h' : map.Holds state' interner')
    (longer : interner.names <+: interner'.names) {id : Nat}
    (known : map.resolve state id = some symbol) : map.resolve state' id = some symbol := by
  rw [h.resolve] at known
  rw [h'.resolve, Interner.resolve_of_prefix longer known]

theorem Holds.lookup_later (h : map.Holds state interner) (h' : map.Holds state' interner')
    (distinct : interner.Distinct) (distinct' : interner'.Distinct)
    (longer : interner.names <+: interner'.names) (known : map.lookup state name = some symbol) :
    map.lookup state' name = some symbol := by
  obtain ⟨same, known⟩ := (h.lookup_eq_some_iff distinct).mp known
  exact (h'.lookup_eq_some_iff distinct').mpr ⟨same, h.resolve_later h' longer known⟩

theorem Holds.beq_iff (h : map.Holds state interner) (distinct : interner.Distinct)
    (known : map.lookup state name = some symbol)
    (known' : map.lookup state other = some symbol') : symbol == symbol' ↔ name = other := by
  rw [h.lookup] at known known'
  obtain ⟨knows, rfl⟩ := Interner.knows_of_lookup known
  obtain ⟨knows', rfl⟩ := Interner.knows_of_lookup known'
  exact distinct.beq_iff knows knows'

/-- In a map that is read both ways, names get the handles 0, 1, 2 and so on in the order in which
they are first asked for, as long as there are handles. A name that is known keeps its symbol and
changes nothing. Names lead to symbols and handles lead back, for just the names that came and just
the handles that were given, and whatever is asked for later leaves that so. Two names have equal
symbols only if they are equal. All answers are those of the list of names. -/
theorem interns_in_order (lawful : map.Lawful) (before later : List NameRequest)
    (few : (named (before ++ later)).eraseDups.length ≤ handleCount) :
    let names := (named before).eraseDups
    let state := (serve map.answer map.empty before).2
    let state' := (serve map.answer map.empty (before ++ later)).2
    map.size state = names.length ∧
    (∀ id, map.resolve state id = names[id]?.map fun name => ⟨id, name⟩) ∧
    (∀ name symbol, map.lookup state name = some symbol ↔
      symbol.name = name ∧ map.resolve state symbol.id = some symbol) ∧
    (∀ name, (map.lookup state name).isSome ↔ name ∈ names) ∧
    (∀ name symbol, map.lookup state name = some symbol →
      map.intern state name = (symbol, state)) ∧
    (∀ name, name ∉ names → names.length < handleCount →
      (map.intern state name).1 = ⟨names.length, name⟩) ∧
    (∀ name symbol, map.lookup state name = some symbol → map.lookup state' name = some symbol) ∧
    (∀ id symbol, map.resolve state id = some symbol → map.resolve state' id = some symbol) ∧
    (∀ name other symbol symbol', map.lookup state name = some symbol →
      map.lookup state' other = some symbol' → (symbol == symbol' ↔ name = other)) ∧
    (serve map.answer map.empty before).1 = (serve Interner.answer .empty before).1 := by
  intro names state state'
  let interner := (serve Interner.answer .empty before).2
  let interner' := (serve Interner.answer .empty (before ++ later)).2
  have numbered : interner.names = names := Interner.names_serve before
  have distinct : interner.Distinct := Interner.distinct_serve before
  have distinct' : interner'.Distinct := Interner.distinct_serve (before ++ later)
  have longer : interner.names <+: interner'.names := by
    change _ <+: (serve Interner.answer .empty (before ++ later)).2.names
    rw [serve_append]
    exact interner.names_prefix_serve later
  rw [← Interner.names_serve] at few
  obtain ⟨answers, holds⟩ :=
    lawful.holds_empty.serve lawful (Nat.le_trans longer.length_le few)
  obtain ⟨_, holds'⟩ := lawful.holds_empty.serve lawful few
  have kept (name : String) (symbol : Symbol) (known : map.lookup state name = some symbol) :
      map.lookup state' name = some symbol :=
    holds.lookup_later holds' distinct distinct' longer known
  refine ⟨holds.size.trans (congrArg List.length numbered), ?_,
    fun name symbol => holds.lookup_eq_some_iff distinct, ?_, ?_, ?_, kept,
    fun id symbol => holds.resolve_later holds' longer, ?_, answers⟩
  · intro id
    rw [holds.resolve, Interner.resolve, numbered]
  · intro name
    rw [holds.lookup, Interner.isSome_lookup, numbered]
  · intro name symbol known
    rw [TwoWayMap.intern, known]
  · intro name fresh room
    rw [← numbered] at fresh room ⊢
    exact holds.intern_of_fresh lawful fresh room
  · intro name other symbol symbol' known known'
    exact holds'.beq_iff distinct' (kept name symbol known) known'

/-- Two names and a third one later, one of them asked for twice. A name that did not come has no
symbol, and a handle that was not given has no name. -/
theorem interns_in_order_of_repeated :
    let before : List NameRequest :=
      [.intern "b", .lookup "a", .intern "a", .resolve 1, .intern "b", .resolve 2]
    let later : List NameRequest := [.intern "c", .lookup "a"]
    let state := (serve PairMap.table.answer .empty before).2
    let state' := (serve PairMap.table.answer .empty (before ++ later)).2
    PairMap.table.Lawful ∧ (named (before ++ later)).eraseDups.length ≤ handleCount ∧
      (named before).eraseDups = ["b", "a"] ∧
      PairMap.table.resolve state 1 = some ⟨1, "a"⟩ ∧
      PairMap.table.resolve state' 1 = some ⟨1, "a"⟩ ∧
      (PairMap.table.intern state "c").1 = ⟨2, "c"⟩ ∧
      (serve PairMap.table.answer .empty before).1 =
        [some ⟨0, "b"⟩, none, some ⟨1, "a"⟩, some ⟨1, "a"⟩, some ⟨0, "b"⟩, none] := by
  intro before later state state'
  have names : (named before).eraseDups = ["b", "a"] := by decide
  have few : (named (before ++ later)).eraseDups.length ≤ handleCount := by decide
  obtain ⟨_, numbered, _, _, _, fresh, _, kept, _, answers⟩ :=
    interns_in_order PairMap.lawful_table before later few
  have second : PairMap.table.resolve state 1 = some ⟨1, "a"⟩ := by
    refine (numbered 1).trans ?_
    rw [names]
    rfl
  refine ⟨PairMap.lawful_table, few, names, second, kept 1 _ second, ?_, ?_⟩
  · rw [names] at fresh
    exact fresh "c" (by decide) (by decide)
  · exact answers.trans (by decide)

end TwoWayMap

end IntervalCalc
