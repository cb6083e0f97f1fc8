import IntervalCalc.Proofs.Evaluation.Values
import Mathlib.Logic.Relation

/-!
The course of an evaluation: the evaluations that it starts, those that they start, and so on. Each
begins in the scope that what ran before it has left, and the body of a function in a frame of its
own inside that scope. Whatever holds of the first one and passes to every one that is started
holds of all of them, at any depth of nested calls.
-/

namespace IntervalCalc

variable {α : Type} [Scalar α]

/-- An evaluation that is about to run, with calls nested at most `depth` deep. -/
structure Task (α : Type) where
  depth : Nat
  expression : Expr α
  scope : Scope α

namespace Task

/-- How a task ends. -/
def result (task : Task α) : EStateM.Result (EvalError α) (Scope α) (Expr α) :=
  task.expression.evaluate task.depth task.scope

/-- The scope that a task leaves, also after an error. -/
def scopeAfter (task : Task α) : Scope α :=
  EvalM.scopeAfter task.result

/-- One task may start another: the evaluation of an operand, of a condition and of the branch
taken, of an argument or a bound behind those before it, and of the body of a function of the scope
with its parameters bound to the arguments. -/
inductive Starts : Task α → Task α → Prop
  | operand {depth : Nat} {scope : Scope α} {op : UnaryOp} {operand : Expr α} :
      Starts ⟨depth, .unary op operand, scope⟩ ⟨depth, operand, scope⟩
  | assigned {depth : Nat} {scope : Scope α} {left right : Expr α} :
      Starts ⟨depth, .binary .assign left right, scope⟩ ⟨depth, right, scope⟩
  | left {depth : Nat} {scope : Scope α} {op : BinaryOp} {left right : Expr α} : op ≠ .assign →
      Starts ⟨depth, .binary op left right, scope⟩ ⟨depth, left, scope⟩
  | right {depth : Nat} {scope after : Scope α} {op : BinaryOp} {left right value : Expr α} :
      op ≠ .assign → left.evaluate depth scope = .ok value after →
      Starts ⟨depth, .binary op left right, scope⟩ ⟨depth, right, after⟩
  | condition {depth : Nat} {scope : Scope α} {condition consequence alternative : Expr α} :
      Starts ⟨depth, .branch condition consequence alternative, scope⟩ ⟨depth, condition, scope⟩
  | consequence {depth : Nat} {scope after : Scope α}
      {condition consequence alternative value : Expr α} :
      condition.evaluate depth scope = .ok value after → value.isTrue →
      Starts ⟨depth, .branch condition consequence alternative, scope⟩ ⟨depth, consequence, after⟩
  | alternative {depth : Nat} {scope after : Scope α}
      {condition consequence alternative value : Expr α} :
      condition.evaluate depth scope = .ok value after → ¬ value.isTrue →
      Starts ⟨depth, .branch condition consequence alternative, scope⟩ ⟨depth, alternative, after⟩
  | argument {depth : Nat} {scope after : Scope α} {head : Symbol} {bracket : Bracket}
      {before rest values : List (Expr α)} {argument : Expr α} :
      Expr.evaluateAllWith (Expr.callWithin depth) before scope = .ok values after →
      Starts ⟨depth, .composite head (before ++ argument :: rest) bracket, scope⟩
        ⟨depth, argument, after⟩
  | body {depth : Nat} {scope after : Scope α} {head name : Symbol} {bracket : Bracket}
      {parameters : List Symbol} {body : Expr α} {arguments values : List (Expr α)} :
      bracket ≠ .curly → scope.get? head = some (.function name parameters body) →
      parameters.length = arguments.length →
      Expr.evaluateAllWith (Expr.callWithin (depth + 1)) arguments scope = .ok values after →
      Starts ⟨depth + 1, .composite head arguments bracket, scope⟩
        ⟨depth, body, after.push (Frame.ofArguments parameters values)⟩

/-- One task is the other, or starts it, or starts a task that comes to it. -/
def ComesTo : Task α → Task α → Prop :=
  Relation.ReflTransGen Starts

/-- The intervals of the expression have a property, and the scope binds values only. -/
structure Holds (P : Interval α → Prop) (task : Task α) : Prop where
  literals : task.expression.Literals P
  values : task.scope.Values P

variable {P : Interval α → Prop} {task other : Task α}

theorem Holds.yields (closed : Interval.Closed P) (h : task.Holds P) :
    task.scopeAfter.Values P ∧ ∀ value after, task.result = .ok value after → value.Value P :=
  task.expression.evaluate_yields closed task.depth h.literals task.scope h.values

/-- The scope that a task leaves to the next one binds values only, and so does the frame of a
call. -/
theorem Starts.holds (closed : Interval.Closed P) (starts : task.Starts other) (h : task.Holds P) :
    other.Holds P := by
  obtain ⟨literals, values⟩ := h
  cases starts with
  | operand =>
      cases literals with
      | unary h => exact ⟨h, values⟩
  | assigned =>
      cases literals with
      | binary hl hr => exact ⟨hr, values⟩
  | left =>
      cases literals with
      | binary hl hr => exact ⟨hl, values⟩
  | right _ ran =>
      cases literals with
      | binary hl hr => exact ⟨hr, ((Expr.evaluate_yields closed _ hl).ok values ran).1⟩
  | condition =>
      cases literals with
      | branch hc ht he => exact ⟨hc, values⟩
  | consequence ran =>
      cases literals with
      | branch hc ht he => exact ⟨ht, ((Expr.evaluate_yields closed _ hc).ok values ran).1⟩
  | alternative ran =>
      cases literals with
      | branch hc ht he => exact ⟨he, ((Expr.evaluate_yields closed _ hc).ok values ran).1⟩
  | @argument depth _ _ _ _ before _ _ _ ran =>
      cases literals with
      | composite h =>
          have earlier := Expr.evaluateAllWith_yields closed (Expr.callWithin_yields closed depth)
            before fun e member => h e (List.mem_append_left _ member)
          exact ⟨h _ (List.mem_append_right _ List.mem_cons_self), (earlier.ok values ran).1⟩
  | @body depth _ _ _ _ _ parameters _ arguments _ _ found _ ran =>
      cases literals with
      | composite h =>
          obtain ⟨kept, given⟩ := (Expr.evaluateAllWith_yields closed
            (Expr.callWithin_yields closed (depth + 1)) arguments h).ok values ran
          cases values.get? found with
          | function hb => exact ⟨hb, kept.push (.ofArguments parameters given)⟩

theorem ComesTo.holds (closed : Interval.Closed P) (h : task.ComesTo other)
    (first : task.Holds P) : other.Holds P := by
  induction h with
  | refl => exact first
  | tail _ starts ih => exact starts.holds closed ih

end Task

end IntervalCalc
