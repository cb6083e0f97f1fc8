import IntervalCalc.Proofs.Engine.Reached
import IntervalCalc.Scalar.Float

/-!
Starting over. Whatever is done with an engine and its clones, each of them still knows the grammar
that the first was built with. So one that is reset is the engine that it was at the beginning, with
nothing left of what was declared, named or bound. None of this depends on how texts are parsed.
-/

namespace IntervalCalc

variable {α : Type}

/-- What an engine is asked for. -/
inductive Engine.Action (α : Type) where
  | run (source : String)
  | parse (source : String)
  | evaluate (expression : Expr α)
  | define (name : String) (value : Expr α)
  | forget (name : String)
  | lookup (name : String)
  | reset

/-- What an engine answers. -/
inductive Engine.Answer (α : Type) where
  | ran (result : Except (ProgramError α) (Expr α))
  | parsed (result : Except SyntaxError (Expr α))
  | evaluated (result : Except (EvalError α) (Expr α))
  | defined (symbol : Symbol)
  | found (value : Option (Expr α))
  | done

/-- Something that is done with one of several engines. -/
inductive Engine.Deed (α : Type) where
  | act (index : Nat) (action : Engine.Action α)
  | clone (index : Nat)

namespace Engine

variable [Scalar α]

section Actions

variable (parse : Parse α)

def act (engine : Engine α) : Action α → Answer α × Engine α
  | .run source => (.ran (engine.runWith parse source).1, (engine.runWith parse source).2)
  | .parse source => (.parsed (engine.parseWith parse source).1, (engine.parseWith parse source).2)
  | .evaluate expression =>
    (.evaluated (engine.evaluate expression).1, (engine.evaluate expression).2)
  | .define name value => (.defined (engine.define name value).1, (engine.define name value).2)
  | .forget name => (.found (engine.forget name).1, (engine.forget name).2)
  | .lookup name => (.found (engine.lookup name), engine)
  | .reset => (.done, engine.reset)

/-- What an engine answers to one action after the other. -/
def answers : List (Action α) → Engine α → List (Answer α)
  | [], _ => []
  | action :: later, engine =>
    (engine.act parse action).1 :: answers later (engine.act parse action).2

/-- Does something with one of several engines, if it is there. A clone comes last. -/
def perform (engines : List (Engine α)) : Deed α → Option (Answer α) × List (Engine α)
  | .act index action =>
    match engines[index]? with
    | none => (none, engines)
    | some engine =>
      (some (engine.act parse action).1, engines.set index (engine.act parse action).2)
  | .clone index => (none, engines ++ engines[index]?.toList)

/-- The answers to one deed after the other. -/
def heard : List (Deed α) → List (Engine α) → List (Option (Answer α))
  | [], _ => []
  | deed :: later, engines =>
    (perform parse engines deed).1 :: heard later (perform parse engines deed).2

/-- The engines behind one deed after the other. -/
def course (deeds : List (Deed α)) (engines : List (Engine α)) : List (Engine α) :=
  deeds.foldl (fun engines deed => (perform parse engines deed).2) engines

end Actions

variable {parse : Parse α}

section Steps

variable {engine : Engine α}

theorem initial_evaluate (expression : Expr α) :
    (engine.evaluate expression).2.initial = engine.initial := by
  unfold evaluate
  split
  · rfl
  · rfl

theorem initial_runWith (source : String) :
    (engine.runWith parse source).2.initial = engine.initial := by
  cases parsed : (engine.parseWith parse source).1 with
  | error error =>
      rw [runWith_of_parse_error parsed]
      rfl
  | ok tree =>
      rw [runWith_of_parse parsed]
      exact initial_evaluate tree

omit [Scalar α] in
theorem initial_forget (name : String) : (engine.forget name).2.initial = engine.initial := by
  unfold forget
  split
  · rfl
  · rfl

/-- No action changes the grammar that an engine goes back to. -/
theorem initial_act (action : Action α) :
    (engine.act parse action).2.initial = engine.initial := by
  cases action with
  | run source => exact initial_runWith source
  | evaluate expression => exact initial_evaluate expression
  | forget name => exact initial_forget name
  | parse | define | lookup | reset => rfl

end Steps

section Several

variable {engines : List (Engine α)} {engine : Engine α} {index : Nat}

theorem perform_act (found : engines[index]? = some engine) (action : Action α) :
    perform parse engines (.act index action) =
      (some (engine.act parse action).1, engines.set index (engine.act parse action).2) := by
  rw [perform, found]

theorem perform_missing (missing : engines[index]? = none) (action : Action α) :
    perform parse engines (.act index action) = (none, engines) := by
  rw [perform, missing]

/-- What is done with one engine changes the grammar of the beginning of none. -/
theorem initial_perform {grammar : Grammar} (kept : ∀ engine ∈ engines, engine.initial = grammar)
    (deed : Deed α) : ∀ engine ∈ (perform parse engines deed).2, engine.initial = grammar := by
  intro other member
  cases deed with
  | act index action =>
      cases found : engines[index]? with
      | none =>
          rw [perform_missing found] at member
          exact kept other member
      | some engine =>
          rw [perform_act found] at member
          rcases List.mem_or_eq_of_mem_set member with before | rfl
          · exact kept other before
          · exact (initial_act action).trans (kept engine (List.mem_of_getElem? found))
  | clone index =>
      rcases List.mem_append.mp member with before | copied
      · exact kept other before
      · exact kept other (List.mem_of_getElem? (Option.mem_toList.mp copied))

theorem initial_course {grammar : Grammar} (kept : ∀ engine ∈ engines, engine.initial = grammar)
    (deeds : List (Deed α)) : ∀ engine ∈ course parse deeds engines, engine.initial = grammar := by
  induction deeds generalizing engines with
  | nil => exact kept
  | cons deed later ih => exact ih (initial_perform kept deed)

/-- An engine among others answers as it does alone. -/
theorem heard_act (parse : Parse α) (found : engines[index]? = some engine)
    (actions : List (Action α)) :
    heard parse (actions.map (.act index)) engines = (engine.answers parse actions).map some := by
  induction actions generalizing engine engines with
  | nil => rfl
  | cons action later ih =>
      obtain ⟨inside, _⟩ := List.getElem?_eq_some_iff.mp found
      have after : (engines.set index (engine.act parse action).2)[index]? =
          some (engine.act parse action).2 := List.getElem?_set_self inside
      rw [List.map_cons, heard, perform_act found, ih after]
      rfl

end Several

/-- Whatever was done with an engine and its clones, and with whatever outcome, one that is reset
is the engine of the beginning: its grammar is the one that it was built with, and nothing is named
or bound. So it answers from then on like a new one, among the others as alone, in whatever way
texts are parsed. -/
theorem reset_starts_over (parse : Parse α) (grammar : Grammar) (deeds : List (Deed α)) :
    ∀ index engine, (course parse deeds [ofGrammar grammar])[index]? = some engine →
      engine.reset = ⟨grammar, grammar, .empty, .empty⟩ ∧
      (∀ later, heard parse later [engine.reset] = heard parse later [ofGrammar grammar]) ∧
      ∀ actions, heard parse (.act index .reset :: actions.map (.act index))
          (course parse deeds [ofGrammar grammar]) =
        some .done :: ((ofGrammar grammar).answers parse actions).map some := by
  intro index engine found
  have kept : engine.initial = grammar :=
    initial_course (List.forall_mem_singleton.mpr rfl) deeds engine (List.mem_of_getElem? found)
  have fresh : engine.reset = ofGrammar grammar := by rw [reset, kept]
  refine ⟨fresh, fun later => by rw [fresh], fun actions => ?_⟩
  have heard := heard_act parse found (.reset :: actions)
  rw [answers, act, fresh] at heard
  exact heard

/-- An engine with an operator of its own. A program declares it anew, and a keyword as well, one
does not parse, and one does not evaluate. A clone of the engine goes its own way. -/
theorem reset_starts_over_behind_declarations :
    let grammar := Grammar.standard.register "max" (.infixed 30 (.apply ⟨0, "max"⟩))
    let deeds : List (Deed Float) := [.act 0 (.run "infix max 45; x = 1 max 2"),
      .act 0 (.run "prefix then 90; y = 3"), .act 0 (.parse "1 + * z"), .clone 0,
      .act 1 (.define "w" (.number 4)), .act 1 (.run "w + missing"), .act 0 (.forget "y"),
      .act 0 (.lookup "x")]
    let engines := course Grammar.parse deeds [ofGrammar grammar]
    ∃ engine, engines[1]? = some engine ∧ engine.grammar ≠ grammar ∧
      engine.interner.names = ["max", "x", "then", "y", "w", "missing"] ∧
      engine.reset = ⟨grammar, grammar, .empty, .empty⟩ ∧
      ∀ actions, heard Grammar.parse (.act 1 .reset :: actions.map (.act 1)) engines =
        some .done :: ((ofGrammar grammar).answers Grammar.parse actions).map some := by
  intro grammar deeds engines
  have there : 1 < engines.length := by decide +kernel
  have found : engines[1]? = some engines[1] := List.getElem?_eq_getElem there
  have changed : ∀ engine ∈ engines[1]?,
      engine.grammar ≠ grammar ∧
        engine.interner.names = ["max", "x", "then", "y", "w", "missing"] := by decide +kernel
  obtain ⟨declared, named⟩ := changed engines[1] found
  obtain ⟨fresh, _, like⟩ := reset_starts_over Grammar.parse grammar deeds 1 engines[1] found
  exact ⟨engines[1], found, declared, named, fresh, like⟩

end Engine

end IntervalCalc
