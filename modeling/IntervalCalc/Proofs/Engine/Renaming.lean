import IntervalCalc.Engine
import IntervalCalc.Proofs.Evaluation.Renaming
import IntervalCalc.Proofs.Parsing.Renaming

/-!
Engines with handles of their own. Two engines correspond if they have the same operators and bind
the same names to the same values, up to the handles. Whatever both are asked to do, they give
corresponding answers and correspond again, although one of them may have seen names that the other
one has not.
-/

namespace IntervalCalc

section Unbound

variable {I J : Interner} {name : String} {keys keys' : List Symbol}

namespace Interner

/-- No key has the handle of a name, if the name was seen at all. -/
def Unbound (interner : Interner) (name : String) (keys : List Symbol) : Prop :=
  ∀ symbol, interner.lookup name = some symbol → ∀ key ∈ keys, (key == symbol) = false

theorem Namesakes.symm {a b : Symbol} (h : I.Namesakes J a b) : J.Namesakes I b a :=
  ⟨h.name.symm, h.right, h.left⟩

/-- A name has two symbols that stand for each other, or is new to one of two interners. -/
theorem Namesakes.lookups (I J : Interner) (name : String) :
    (∃ a b, I.lookup name = some a ∧ J.lookup name = some b ∧ I.Namesakes J a b) ∨
      (I.lookup name = none ∨ J.lookup name = none) := by
  cases found : I.lookup name with
  | none => exact .inr (.inl rfl)
  | some a =>
      cases found' : J.lookup name with
      | none => exact .inr (.inr rfl)
      | some b =>
          obtain ⟨known, named⟩ := knows_of_lookup found
          obtain ⟨known', named'⟩ := knows_of_lookup found'
          exact .inl ⟨a, b, rfl, rfl, named.trans named'.symm, known, known'⟩

/-- A name that is new to one of two interners is none of the names that both know. -/
theorem Namesakes.unbound (h : List.Forall₂ (I.Namesakes J) keys keys')
    (missing : I.lookup name = none ∨ J.lookup name = none) : I.Unbound name keys := by
  intro symbol found key member
  rcases missing with none | missing
  · rw [none] at found
    cases found
  · obtain ⟨known, named⟩ := knows_of_lookup found
    obtain ⟨key', _, related⟩ := exists_related_left h member
    rw [Bool.eq_false_iff]
    intro same
    have equal := related.left.eq_of_id known (Symbol.beq_iff.mp same)
    refine not_mem_of_lookup missing ?_
    rw [← named, ← equal, related.name]
    exact related.right.mem_names

theorem Namesakes.unbound' (h : List.Forall₂ (I.Namesakes J) keys keys')
    (missing : I.lookup name = none ∨ J.lookup name = none) : J.Unbound name keys' :=
  unbound (List.Forall₂.flip (h.imp fun _ _ related => related.symm)) missing.symm

end Interner

end Unbound

namespace OrderedMap

variable {κ ν : Type} [BEq κ] {map : OrderedMap κ ν} {key : κ}

theorem find?_eq_none [EquivBEq κ] (absent : ∀ k ∈ map.keys, (k == key) = false) :
    map.find? key = none := by
  rw [← Option.not_isSome_iff_eq_none, isSome_find?]
  rintro ⟨k, member, same⟩
  have other := absent k member
  rw [BEq.symm same] at other
  cases other

theorem erase_eq_self (absent : ∀ k ∈ map.keys, (k == key) = false) : map.erase key = map := by
  have kept : map.entries.filter (fun entry => !(entry.1 == key)) = map.entries := by
    refine List.filter_eq_self.mpr fun entry member => ?_
    rw [absent entry.1 (List.mem_map_of_mem member)]
    rfl
  unfold erase
  rw [kept]

end OrderedMap

variable {α : Type}

theorem Scope.get?_eq_none {scope : Scope α} {symbol : Symbol}
    (absent : ∀ frame ∈ scope.inner :: scope.outer, ∀ key ∈ frame.keys, (key == symbol) = false) :
    scope.get? symbol = none := by
  unfold Scope.get?
  rw [List.findSome?_eq_none_iff]
  exact fun frame member => OrderedMap.find?_eq_none (absent frame member)

namespace Engine

theorem interner_forget (engine : Engine α) (name : String) :
    (engine.forget name).2.interner = engine.interner := by
  unfold Engine.forget
  split <;> rfl

section Unbound

variable {engine : Engine α} {name : String}

theorem lookup_of_unbound (unbound : ∀ frame ∈ engine.globals.inner :: engine.globals.outer,
    engine.interner.Unbound name frame.keys) : engine.lookup name = none := by
  unfold Engine.lookup
  cases found : engine.interner.lookup name with
  | none => rfl
  | some symbol => exact Scope.get?_eq_none fun frame member => unbound frame member symbol found

theorem forget_of_unbound (unbound : engine.interner.Unbound name engine.globals.inner.keys) :
    engine.forget name = (none, engine) := by
  unfold Engine.forget
  cases found : engine.interner.lookup name with
  | none => rfl
  | some symbol =>
      have absent := unbound symbol found
      dsimp only
      rw [OrderedMap.find?_eq_none absent, Scope.remove, OrderedMap.erase_eq_self absent]

end Unbound

/-- Engines that have the same operators and bindings, but for the handles of names. -/
structure Renamed (engine other : Engine α) : Prop where
  lexer : engine.grammar.lexer = other.grammar.lexer
  operators : engine.grammar.operators.Renamed (engine.interner.Namesakes other.interner)
    other.grammar.operators
  globals : engine.globals.Renamed (engine.interner.Namesakes other.interner) other.globals
  left : engine.interner.Distinct
  right : other.interner.Distinct

/-- Answers of two engines, and the engines after them. What corresponded before still does. -/
structure Answers {ε β : Type} (V : (Symbol → Symbol → Prop) → β → β → Prop)
    (engine other : Engine α) (x y : Except ε β × Engine α) : Prop where
  answer : Except.Related (V (x.2.interner.Namesakes y.2.interner)) x.1 y.1
  engines : x.2.Renamed y.2
  onward : engine.interner.Onward other.interner x.2.interner y.2.interner

namespace Renamed

variable {engine other : Engine α}

theorem pairing (h : engine.Renamed other) :
    Symbol.Pairing (engine.interner.Namesakes other.interner) :=
  Interner.Namesakes.pairing h.left h.right

theorem new : (Engine.new : Engine α).Renamed .new where
  lexer := rfl
  operators := OperatorTable.Renamed.self fun head member => by cases member
  globals := .empty
  left := .empty
  right := .empty

/-- Two engines that correspond with other bindings. -/
theorem rebind (h : engine.Renamed other) {globals globals' : Scope α}
    (scopes : globals.Renamed (engine.interner.Namesakes other.interner) globals') :
    Renamed { engine with globals } { other with globals := globals' } :=
  ⟨h.lexer, h.operators, scopes, h.left, h.right⟩

theorem define (h : engine.Renamed other) (name : String) {x y : Expr α}
    (value : x.Renamed (Interner.Namesakes (engine.interner.intern name).2
      (other.interner.intern name).2) y) :
    (engine.define name x).2.Renamed (other.define name y).2 := by
  have onward := Interner.Onward.intern engine.interner other.interner name
  have symbol := Interner.Namesakes.interned engine.interner other.interner name
  have grows : ∀ a b, engine.interner.Namesakes other.interner a b → _ :=
    fun _ _ related => onward.namesakes related
  have left := onward.left h.left
  have right := onward.right h.right
  exact ⟨h.lexer, h.operators.mono grows,
    (h.globals.mono grows).set (Interner.Namesakes.pairing left right) symbol value, left, right⟩

/-- The names bound correspond, so a name that one engine has not seen is bound in neither. -/
theorem frames (h : engine.Renamed other) : List.Forall₂
    (fun frame frame' : Frame α =>
      List.Forall₂ (engine.interner.Namesakes other.interner) frame.keys frame'.keys)
    (engine.globals.inner :: engine.globals.outer)
    (other.globals.inner :: other.globals.outer) :=
  .cons h.globals.inner.keys (h.globals.outer.imp fun _ _ related => related.keys)

theorem lookup (h : engine.Renamed other) (name : String) :
    Option.Rel (Expr.Renamed (engine.interner.Namesakes other.interner)) (engine.lookup name)
      (other.lookup name) := by
  rcases Interner.Namesakes.lookups engine.interner other.interner name with
    ⟨a, b, found, found', related⟩ | missing
  · unfold Engine.lookup
    rw [found, found']
    exact h.globals.get? h.pairing related
  · rw [lookup_of_unbound fun frame member => ?_, lookup_of_unbound fun frame' member => ?_]
    · exact .none
    · obtain ⟨frame, _, keys⟩ := exists_related_right h.frames member
      exact Interner.Namesakes.unbound' keys missing
    · obtain ⟨frame', _, keys⟩ := exists_related_left h.frames member
      exact Interner.Namesakes.unbound keys missing

theorem forget (h : engine.Renamed other) (name : String) :
    Option.Rel (Expr.Renamed (engine.interner.Namesakes other.interner)) (engine.forget name).1
        (other.forget name).1 ∧
      (engine.forget name).2.Renamed (other.forget name).2 := by
  rcases Interner.Namesakes.lookups engine.interner other.interner name with
    ⟨a, b, found, found', related⟩ | missing
  · unfold Engine.forget
    rw [found, found']
    exact ⟨h.globals.inner.find? h.pairing.beq related,
      h.rebind (h.globals.remove h.pairing related)⟩
  · have keys := h.globals.inner.keys
    rw [forget_of_unbound (Interner.Namesakes.unbound keys missing),
      forget_of_unbound (Interner.Namesakes.unbound' keys missing)]
    exact ⟨.none, h⟩

variable [Scalar α]

theorem evaluate (h : engine.Renamed other) {x y : Expr α}
    (expressions : x.Renamed (engine.interner.Namesakes other.interner) y) :
    Answers Expr.Renamed engine other (engine.evaluate x) (other.evaluate y) := by
  have agree := Expr.evaluate_renamed h.pairing callDepth expressions _ _ h.globals
  unfold Engine.evaluate
  generalize x.evaluate callDepth engine.globals = found at agree ⊢
  generalize y.evaluate callDepth other.globals = found' at agree ⊢
  cases found with
  | ok value globals =>
      cases found' with
      | ok value' globals' => exact ⟨.ok agree.1, h.rebind agree.2, .refl⟩
      | error error globals' => exact agree.elim
  | error error globals =>
      cases found' with
      | ok value globals' => exact agree.elim
      | error error' globals' =>
          obtain ⟨rfl, scopes⟩ := agree
          exact ⟨.error error, h.rebind scopes, .refl⟩

variable [Numeral α]

theorem parse (h : engine.Renamed other) (source : String) :
    Answers Expr.Renamed engine other (engine.parse source) (other.parse source) := by
  have parsed := Grammar.parse_renamed (α := α) h.lexer h.operators h.left h.right source
  refine ⟨parsed.outcome, ⟨parsed.lexer, parsed.operators, ?_, ?_, ?_⟩, parsed.onward⟩
  · exact h.globals.mono fun _ _ related => parsed.onward.namesakes related
  · exact parsed.onward.left h.left
  · exact parsed.onward.right h.right

theorem run (h : engine.Renamed other) (source : String) :
    Answers Expr.Renamed engine other (engine.run source) (other.run source) := by
  have parsed := h.parse source
  unfold Engine.parse at parsed
  unfold Engine.run Engine.runWith
  generalize engine.parseWith Grammar.parse source = found at parsed ⊢
  generalize other.parseWith Grammar.parse source = found' at parsed ⊢
  obtain ⟨outcome, after⟩ := found
  obtain ⟨outcome', after'⟩ := found'
  obtain ⟨outcomes, engines, onward⟩ := parsed
  dsimp only at outcomes engines onward
  cases outcomes with
  | error error => exact ⟨.error _, engines, onward⟩
  | ok trees =>
      have evaluated := engines.evaluate trees
      dsimp only
      generalize after.evaluate _ = result at evaluated ⊢
      generalize after'.evaluate _ = result' at evaluated ⊢
      obtain ⟨result, last⟩ := result
      obtain ⟨result', last'⟩ := result'
      obtain ⟨results, engines, onward'⟩ := evaluated
      dsimp only at results engines onward'
      cases results with
      | error error => exact ⟨.error _, engines, onward.trans onward'⟩
      | ok values => exact ⟨.ok values, engines, onward.trans onward'⟩

end Renamed

end Engine

end IntervalCalc
