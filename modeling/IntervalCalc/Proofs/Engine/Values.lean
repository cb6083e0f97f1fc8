import IntervalCalc.Engine
import IntervalCalc.Proofs.Evaluation.Course
import IntervalCalc.Proofs.Parsing.Literals

/-!
The values of an engine. Whatever programs are run in it, also with errors, its global scope binds
values only, with intervals such as the operations make.
-/

namespace IntervalCalc.Engine

variable {α : Type} [Scalar α] [Numeral α] {P : Interval α → Prop}

/-- The engines reached from a new one by programs and definitions, where the intervals handed in
have a property. -/
inductive Driven (P : Interval α → Prop) : Engine α → Prop
  | new : Driven P new
  | run {engine : Engine α} (source : String) : Driven P engine → Driven P (engine.run source).2
  | parse {engine : Engine α} (source : String) : Driven P engine → Driven P (engine.parse source).2
  | number {engine : Engine α} (name : String) (x : α) : Driven P engine →
      Driven P (engine.define name (.number x)).2
  | interval {engine : Engine α} (name : String) {X : Interval α} : P X → Driven P engine →
      Driven P (engine.define name (.interval X)).2
  | forget {engine : Engine α} (name : String) : Driven P engine → Driven P (engine.forget name).2
  | reset {engine : Engine α} : Driven P engine → Driven P engine.reset

variable {engine : Engine α}

theorem parse_literals (closed : Interval.Closed P) {source : String} {tree : Expr α}
    (parsed : (engine.parse source).1 = .ok tree) : tree.Literals P :=
  Grammar.parse_literals closed parsed

omit [Numeral α] in
theorem evaluate_values (closed : Interval.Closed P) (values : engine.globals.Values P)
    {expression : Expr α} (h : expression.Literals P) :
    (engine.evaluate expression).2.globals.Values P ∧
      ∀ value, (engine.evaluate expression).1 = .ok value → value.Value P := by
  obtain ⟨kept, given⟩ := expression.evaluate_yields closed callDepth h engine.globals values
  unfold Engine.evaluate
  cases ran : expression.evaluate callDepth engine.globals with
  | ok value globals =>
      rw [ran] at kept
      refine ⟨kept, fun other same => ?_⟩
      cases same
      exact given value globals ran
  | error error globals =>
      rw [ran] at kept
      exact ⟨kept, fun other same => by cases same⟩

theorem run_values (closed : Interval.Closed P) (values : engine.globals.Values P)
    (source : String) : (engine.run source).2.globals.Values P ∧
      ∀ value, (engine.run source).1 = .ok value → value.Value P := by
  unfold Engine.run Engine.runWith
  cases parsed : engine.parseWith Grammar.parse source with
  | mk outcome standing =>
      have bindings : standing.globals = engine.globals := congrArg (·.2.globals) parsed.symm
      cases outcome with
      | error error =>
          dsimp only
          rw [bindings]
          exact ⟨values, fun value same => by cases same⟩
      | ok tree =>
          have literals : tree.Literals P := parse_literals closed (congrArg Prod.fst parsed)
          rw [← bindings] at values
          obtain ⟨kept, given⟩ := evaluate_values closed values literals
          dsimp only
          cases ran : standing.evaluate tree with
          | mk outcome last =>
              rw [ran] at kept given
              cases outcome with
              | error error => exact ⟨kept, fun value same => by cases same⟩
              | ok value =>
                  refine ⟨kept, fun other same => ?_⟩
                  cases same
                  exact given value rfl

/-- An engine that was driven so binds values only. -/
theorem Driven.values (closed : Interval.Closed P) (driven : engine.Driven P) :
    engine.globals.Values P := by
  induction driven with
  | new => exact .empty
  | run source _ ih => exact (run_values closed ih source).1
  | parse source _ ih => exact ih
  | number name x _ ih => exact ih.set _ (.number x)
  | interval name h _ ih => exact ih.set _ (.interval h)
  | @forget engine name _ ih =>
      unfold Engine.forget
      split
      · exact ih
      · exact ih.remove _
  | reset => exact .empty

/-- An engine that was driven by programs and definitions of numbers and intervals, also with
errors, binds numbers, intervals and functions only. So does every scope in which an evaluation
runs that it comes to, in every frame, and whatever such an evaluation gives is one of them. -/
theorem values_only (driven : engine.Driven fun _ => True) :
    engine.globals.BindsValues ∧
    (∀ source value, (engine.run source).1 = .ok value → value.IsValue) ∧
    ∀ (depth : Nat) (expression : Expr α) (task : Task α),
      Task.ComesTo ⟨depth, expression, engine.globals⟩ task →
      task.scope.BindsValues ∧ task.scopeAfter.BindsValues ∧
        ∀ value after, task.result = .ok value after → value.IsValue := by
  have values := driven.values .trivial
  refine ⟨values.bindsValues, ?_, ?_⟩
  · intro source value found
    exact ((run_values .trivial values source).2 value found).isValue
  · intro depth expression task reached
    have holds := reached.holds .trivial ⟨expression.literals_trivial, values⟩
    obtain ⟨kept, given⟩ := holds.yields .trivial
    refine ⟨holds.values.bindsValues, kept.bindsValues, fun value after found => ?_⟩
    exact (given value after found).isValue

/-- A function is defined and called. Its body binds a name in its own frame, beside the parameter
that has the value of the argument and hides a global binding. -/
theorem values_only_nested_call :
    let engine : Engine Float := (new.run "x = 1").2
    let f : Symbol := ⟨1, "f"⟩
    let x : Symbol := ⟨0, "x"⟩
    let y : Symbol := ⟨2, "y"⟩
    let defined : Expr Float := .function f [x] (.binary .assign (.symbol y) (.symbol x))
    let program : Expr Float := .binary .sequence defined (.composite f [.number 2] .round)
    let inside : Task Float := ⟨4, .binary .assign (.symbol y) (.symbol x),
      (engine.globals.set f defined).push ⟨[(x, .number 2)]⟩⟩
    engine.Driven (fun _ => True) ∧ Task.ComesTo ⟨5, program, engine.globals⟩ inside ∧
      inside.scopeAfter.inner.entries = [(x, .number 2), (y, .number 2)] ∧
      inside.scopeAfter.BindsValues := by
  intro engine f x y defined program inside
  have driven : engine.Driven (fun _ => True) := .run _ .new
  have first : Task.Starts ⟨5, program, engine.globals⟩
      ⟨5, .composite f [.number 2] .round, engine.globals.set f defined⟩ :=
    .right (by decide) rfl
  have found : (engine.globals.set f defined).get? f = some defined := by
    rw [Scope.get?_set]
    rfl
  have given : Expr.evaluateAllWith (Expr.callWithin (4 + 1)) [.number 2]
    (engine.globals.set f defined) = .ok [.number 2] (engine.globals.set f defined) := rfl
  have second : Task.Starts ⟨5, .composite f [.number 2] .round, engine.globals.set f defined⟩
      inside :=
    Task.Starts.body (show Bracket.round ≠ .curly by decide) found rfl given
  have reached : Task.ComesTo ⟨5, program, engine.globals⟩ inside := .tail (.single first) second
  exact ⟨driven, reached, rfl, ((values_only driven).2.2 5 program inside reached).2.1⟩

open IntervalCalc.Interval (Made Ordered closed_ordered)

theorem interval_ordered {X : Interval Float} (value : (Expr.interval X).Value Ordered) :
    X.Ordered := by
  cases value with
  | interval ordered => exact ordered

/-- Nothing but an undefined bound takes the bounds of an interval out of order, whatever numbers
and operations it is made from, wherever an evaluation computes it, and however an engine was
driven that binds it or gives it. -/
theorem bounds_ordered {engine : Engine Float} (driven : engine.Driven Ordered) :
    (∀ (supplied : Float → Prop) (X : Interval Float), X.Made supplied → X.Ordered) ∧
    (∀ (depth : Nat) (expression : Expr Float) (scope after : Scope Float) (X : Interval Float),
      expression.Literals Ordered → scope.Values Ordered →
      expression.evaluate depth scope = .ok (.interval X) after → X.Ordered) ∧
    (∀ symbol X, engine.globals.get? symbol = some (.interval X) → X.Ordered) ∧
    ∀ source X, (engine.run source).1 = .ok (.interval X) → X.Ordered := by
  have values := driven.values closed_ordered
  refine ⟨fun supplied X made => made.closed closed_ordered, ?_, ?_, ?_⟩
  · intro depth expression scope after X literals bindings found
    exact interval_ordered
      ((expression.evaluate_yields closed_ordered depth literals scope bindings).2 _ after found)
  · intro symbol X bound
    exact interval_ordered (values.get? bound)
  · intro source X found
    exact interval_ordered ((run_values closed_ordered values source).2 _ found)

omit [Scalar α] [Numeral α] in
theorem eq_interval_of_shown {result : Except (ProgramError α) (Expr α)} {X : Interval α}
    (shown : result.toOption.bind Expr.interval? = some X) : result = .ok (.interval X) := by
  cases result with
  | error error => cases shown
  | ok value => cases value <;> cases shown; rfl

theorem bounds_ordered_difference :
    let engine := ((new : Engine Float).run "A = I{1,2}").2
    let X : Interval Float := ⟨-1, 1⟩
    engine.Driven Ordered ∧ (engine.run "A - A").1 = .ok (.interval X) ∧ X.Ordered := by
  intro engine X
  have driven : engine.Driven Ordered := .run "A = I{1,2}" .new
  have found : (engine.run "A - A").1 = .ok (.interval X) :=
    eq_interval_of_shown (by decide +kernel)
  exact ⟨driven, found, (bounds_ordered driven).2.2.2 "A - A" X found⟩

/-- Bounds can be undefined although no number supplied is: the tangent of an interval with a pole
is the whole line, and zero times an infinite bound is no number. -/
theorem bounds_unordered_of_infinite_factor :
    let X : Interval Float := (Interval.between 1 2).tan * Interval.point 0
    X.Made (fun x => ¬ x.isNaN) ∧ ¬ X.inf ≤ X.sup ∧
      ((((new : Engine Float).run "A = tan(I{1,2}) * 0; inf(A) <= sup(A)").1.toOption.bind
        Expr.number?).any (· == 0)) := by
  refine ⟨.mul (.tan (.between ?_ ?_)) (.point ?_), ?_, ?_⟩ <;> decide +kernel

end IntervalCalc.Engine
