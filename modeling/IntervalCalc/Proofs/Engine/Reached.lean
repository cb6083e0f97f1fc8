import IntervalCalc.Engine
import IntervalCalc.Proofs.Parsing.Grounded
import IntervalCalc.Proofs.Parsing.History
import IntervalCalc.Proofs.Parsing.Steps

/-!
The engines that a caller can reach from a new one. Whatever was run, also with errors, their
tokens are those of the standard lexer, and their operators are the standard ones with names
declared.
-/

namespace IntervalCalc

variable {α : Type} [Scalar α] [Numeral α]

namespace Grammar

variable (grammar : Grammar) (interner : Interner) (source : String)

theorem parse_grown (grown : grammar.operators.Grown) :
    (grammar.parse (α := α) interner source).grammar.operators.Grown := by
  have preserves : (TokenSource.direct (α := α) grammar.lexer).Simulates (.direct grammar.lexer)
      fun s t => s = t ∧ s.operators.Grown := by
    refine TokenSource.direct_preserves (fun before _ => before) (fun before _ => before) ?_
    intro s name fixity power before identifier
    exact before.declare identifier fixity (s.interner.intern name).1 power
  have agree := preserves.program (Parser.stepsFor source.toList) (grammar.start interner source)
    (grammar.start interner source) ⟨rfl, grown⟩
  rw [parse_grammar]
  exact agree.stateAfter.2

end Grammar

namespace Engine

section Running

variable {parse : Parse α} {engine : Engine α} {source : String} {tree : Expr α}
  {error : SyntaxError}

omit [Numeral α] in
theorem runWith_of_parse (parsed : (engine.parseWith parse source).1 = .ok tree) :
    engine.runWith parse source =
      (((engine.parseWith parse source).2.evaluate tree).1.mapError .evaluation,
        ((engine.parseWith parse source).2.evaluate tree).2) := by
  unfold Engine.runWith
  split
  next error after same => rw [same] at parsed; cases parsed
  next found after same =>
    rw [same] at parsed ⊢
    cases parsed
    dsimp only
    split
    next error last same' => rw [same']; rfl
    next value last same' => rw [same']; rfl

omit [Numeral α] in
theorem runWith_of_parse_error (failed : (engine.parseWith parse source).1 = .error error) :
    engine.runWith parse source = (.error (.parsing error), (engine.parseWith parse source).2) := by
  unfold Engine.runWith
  split
  next found after same =>
    rw [same] at failed ⊢
    cases failed
    rfl
  next found after same => rw [same] at failed; cases failed

theorem run_of_parse (parsed : (engine.parse source).1 = .ok tree) : engine.run source =
    (((engine.parse source).2.evaluate tree).1.mapError .evaluation,
      ((engine.parse source).2.evaluate tree).2) :=
  runWith_of_parse parsed

theorem run_of_parse_error (failed : (engine.parse source).1 = .error error) :
    engine.run source = (.error (.parsing error), (engine.parse source).2) :=
  runWith_of_parse_error failed

end Running

/-- The engines reached from a new one by its operations. -/
inductive Reached : Engine α → Prop
  | new : Reached new
  | parse {engine : Engine α} (source : String) : Reached engine → Reached (engine.parse source).2
  | evaluate {engine : Engine α} (expression : Expr α) : Reached engine →
      Reached (engine.evaluate expression).2
  | run {engine : Engine α} (source : String) : Reached engine → Reached (engine.run source).2
  | define {engine : Engine α} (name : String) (value : Expr α) : Reached engine →
      Reached (engine.define name value).2
  | forget {engine : Engine α} (name : String) : Reached engine → Reached (engine.forget name).2
  | reset {engine : Engine α} : Reached engine → Reached engine.reset

/-- What the operations of an engine leave of the language. -/
structure Standing (engine : Engine α) : Prop where
  initial : engine.initial = .standard
  lexer : engine.grammar.lexer = .standard
  grown : engine.grammar.operators.Grown

namespace Standing

variable {engine : Engine α}

omit [Scalar α] [Numeral α] in
theorem new : (Engine.new : Engine α).Standing :=
  ⟨rfl, rfl, .standard⟩

omit [Scalar α] [Numeral α] in
theorem of_grammar {other : Engine α} (h : engine.Standing)
    (initial : other.initial = engine.initial) (grammar : other.grammar = engine.grammar) :
    other.Standing := by
  refine ⟨initial.trans h.initial, ?_, ?_⟩
  · rw [grammar]
    exact h.lexer
  · rw [grammar]
    exact h.grown

theorem parse (h : engine.Standing) (source : String) : (engine.parse source).2.Standing := by
  refine ⟨h.initial, ?_, engine.grammar.parse_grown engine.interner source h.grown⟩
  change (engine.grammar.parse engine.interner source).grammar.lexer = _
  rw [Grammar.parse_grammar]
  exact h.lexer

omit [Numeral α] in
theorem evaluate (h : engine.Standing) (expression : Expr α) :
    (engine.evaluate expression).2.Standing := by
  unfold Engine.evaluate
  split
  · exact h.of_grammar rfl rfl
  · exact h.of_grammar rfl rfl

theorem run (h : engine.Standing) (source : String) : (engine.run source).2.Standing := by
  cases parsed : (engine.parse source).1 with
  | error error =>
      rw [run_of_parse_error parsed]
      exact h.parse source
  | ok tree =>
      rw [run_of_parse parsed]
      exact (h.parse source).evaluate tree

omit [Scalar α] [Numeral α] in
theorem forget (h : engine.Standing) (name : String) : (engine.forget name).2.Standing := by
  unfold Engine.forget
  split
  · exact h
  · exact h.of_grammar rfl rfl

omit [Scalar α] [Numeral α] in
theorem reset (h : engine.Standing) : engine.reset.Standing := by
  unfold Engine.reset
  rw [h.initial]
  exact new

end Standing

theorem Reached.standing {engine : Engine α} (h : engine.Reached) : engine.Standing := by
  induction h with
  | new => exact .new
  | parse source _ ih => exact ih.parse source
  | evaluate expression _ ih => exact ih.evaluate expression
  | run source _ ih => exact ih.run source
  | define name value _ ih => exact ih.of_grammar rfl rfl
  | forget name _ ih => exact ih.forget name
  | reset _ ih => exact ih.reset

end Engine

end IntervalCalc
