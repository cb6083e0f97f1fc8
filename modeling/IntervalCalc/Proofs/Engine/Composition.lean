import IntervalCalc.Proofs.Engine.Reached
import IntervalCalc.Proofs.Parsing.Sequence
import IntervalCalc.Scalar.Float

/-!
Programs run one after the other. As long as every declared operator binds tighter than the
separator, it makes no difference whether the second program is later text of the first one or a
program of its own: it has the same names, the same operators and the same bindings to start from.
-/

namespace IntervalCalc

variable {α : Type} [Scalar α]

/-- A sequence has the value of its last operand. -/
theorem Expr.evaluateWith_sequence (call : Call α) (left right : Expr α) :
    (binary .sequence left right).evaluateWith call = (do
      let _ ← left.evaluateWith call
      right.evaluateWith call) := by
  have last : ∀ x y : Expr α, operate .sequence x y = pure y := by
    intro x y
    cases x <;> rfl
  rw [evaluateWith, if_neg (by decide)]
  simp only [last, bind_pure]

/-- A tree with another one before its first statement is evaluated after that other one. -/
theorem Grafted.evaluateWith {prior tree grafted : Expr α} (h : Grafted prior tree grafted)
    (call : Call α) :
    grafted.evaluateWith call = (do
      let _ ← prior.evaluateWith call
      tree.evaluateWith call) := by
  induction h with
  | here first => exact Expr.evaluateWith_sequence call prior first
  | later last _ ih =>
      rw [Expr.evaluateWith_sequence, Expr.evaluateWith_sequence, ih, bind_assoc]

namespace Engine

variable [Numeral α] {engine : Engine α}

section Evaluating

omit [Numeral α]

theorem evaluate_eq {expression value : Expr α} {globals : Scope α}
    (h : expression.evaluate callDepth engine.globals = .ok value globals) :
    engine.evaluate expression = (.ok value, { engine with globals }) := by
  unfold Engine.evaluate
  rw [h]

theorem evaluate_ok {expression value : Expr α}
    (h : (engine.evaluate expression).1 = .ok value) :
    ∃ globals, expression.evaluate callDepth engine.globals = .ok value globals := by
  unfold Engine.evaluate at h
  split at h
  next found globals same =>
    cases h
    exact ⟨globals, same⟩
  · cases h

/-- Behind a tree that has a value, the rest is evaluated with what the tree has bound. -/
theorem evaluate_grafted {prior tree grafted value : Expr α} {globals : Scope α}
    (h : Grafted prior tree grafted)
    (evaluated : prior.evaluate callDepth engine.globals = .ok value globals) :
    engine.evaluate grafted = { engine with globals }.evaluate tree := by
  have behind : grafted.evaluate callDepth engine.globals = tree.evaluate callDepth globals := by
    unfold Expr.evaluate at evaluated ⊢
    rw [h.evaluateWith, Run.bind_ok evaluated]
  unfold Engine.evaluate
  rw [behind]

end Evaluating

theorem run_ok {source : String} {value : Expr α} (h : (engine.run source).1 = .ok value) :
    ∃ tree globals, (engine.parse source).1 = .ok tree ∧
      tree.evaluate callDepth engine.globals = .ok value globals ∧
      (engine.run source).2 = { (engine.parse source).2 with globals } := by
  cases parsed : (engine.parse source).1 with
  | error error =>
      rw [run_of_parse_error parsed] at h
      cases h
  | ok tree =>
      rw [run_of_parse parsed] at h ⊢
      cases found : ((engine.parse source).2.evaluate tree).1 with
      | error error => rw [found] at h; cases h
      | ok result =>
          rw [found] at h
          cases h
          obtain ⟨globals, evaluated⟩ := evaluate_ok found
          exact ⟨tree, globals, rfl, evaluated, congrArg Prod.snd (evaluate_eq evaluated)⟩

/-- Two programs, run as one with a separator on a line between them or one after the other, have
the same outcome and leave the same engine: the same names, operators and bindings. The first one
has to succeed without a separator at its end, the second one has to parse behind it, and whatever
was declared before or in them has to bind tighter than a separator. -/
theorem run_composition (reached : engine.Reached) {a b : String} (ran : (engine.run a).1.isOk)
    (last : (engine.grammar.history α engine.interner a).words.getLast? ≠ some (.operator ";"))
    (parses : ((engine.run a).2.parse b).1.isOk)
    (declared : engine.grammar.operators.DeclaredAbove 10)
    (first : (engine.grammar.history α engine.interner a).DeclaresAbove 10)
    (second : ((engine.run a).2.grammar.history α (engine.run a).2.interner b).DeclaresAbove 10) :
    engine.run (a ++ "\n;\n" ++ b) = (engine.run a).2.run b := by
  obtain ⟨value, ran⟩ := exists_of_isOk ran
  obtain ⟨tree, parsed⟩ := exists_of_isOk parses
  have standing := reached.standing
  obtain ⟨prior, globals, parsed', evaluated, after⟩ := run_ok ran
  rw [after] at parsed second ⊢
  obtain ⟨whole, grafted, joined⟩ := Grammar.parse_sequence standing.lexer
    ⟨standing.grown, declared⟩ parsed' first last rfl parsed second
  have parsed_whole : (engine.parse (a ++ "\n;\n" ++ b)).1 = .ok whole :=
    congrArg Grammar.Parsed.outcome joined
  have leaves : (engine.parse (a ++ "\n;\n" ++ b)).2 =
      { ({ (engine.parse a).2 with globals }.parse b).2 with globals := engine.globals } := by
    change { engine with
      grammar := (engine.grammar.parse engine.interner (a ++ "\n;\n" ++ b)).grammar
      interner := (engine.grammar.parse engine.interner (a ++ "\n;\n" ++ b)).interner } = _
    rw [joined]
    rfl
  have same : (engine.parse (a ++ "\n;\n" ++ b)).2.evaluate whole =
      ({ (engine.parse a).2 with globals }.parse b).2.evaluate tree := by
    rw [leaves]
    exact evaluate_grafted grafted evaluated
  rw [run_of_parse parsed_whole, run_of_parse parsed, same]

/-- The second program uses what the first one binds, and its own statements hang on it. -/
theorem run_composition_of_assignments :
    (new.run "x = 1" : _ × Engine Float).1.isOk ∧
      (new.run ("x = 1" ++ "\n;\n" ++ "y = x; y") : _ × Engine Float) =
        (new.run "x = 1").2.run "y = x; y" := by
  have after : (new.run "x = 1").2 = (⟨.standard, .standard, (Interner.empty.intern "x").2,
      Scope.empty.set ⟨0, "x"⟩ (.number (Numeral.ofDecimal 1 0))⟩ : Engine Float) := rfl
  have ran : (new.run "x = 1" : _ × Engine Float).1.isOk := by decide +kernel
  refine ⟨ran, run_composition .new ran ?_ ?_ OperatorTable.Grounded.standard.above ?_ ?_⟩
  · change (Grammar.standard.history Float .empty "x = 1").words.getLast? ≠ some (.operator ";")
    decide +kernel
  · rw [after]
    decide +kernel
  · change (Grammar.standard.history Float .empty "x = 1").DeclaresAbove 10
    decide +kernel
  · rw [after]
    decide +kernel

end Engine

end IntervalCalc
