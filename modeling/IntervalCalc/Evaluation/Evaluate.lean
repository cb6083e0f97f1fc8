import IntervalCalc.Evaluation.Operations
import IntervalCalc.Scope

/-!
Evaluation in a scope.

Numbers, intervals and functions are values. A function body runs in a fresh frame inside the
scope of the caller, and the frame goes when the body ends, with a value or an error.
-/

namespace IntervalCalc

/-- A step of an evaluation. The scope survives an error. -/
abbrev EvalM (α : Type) := EStateM (EvalError α) (Scope α)

/-- Runs the body of a function with its parameters bound to values. -/
abbrev Call (α : Type) :=
  (parameters : List Symbol) → (body : Expr α) → (arguments : List (Expr α)) → EvalM α (Expr α)

namespace EvalM

variable {α β : Type}

def ofExcept : Except (EvalError α) β → EvalM α β
  | .ok value => pure value
  | .error error => throw error

/-- Binds a symbol in the innermost frame and gives its value. -/
def bindSymbol (symbol : Symbol) (value : Expr α) : EvalM α (Expr α) := do
  modify (·.set symbol value)
  return value

/-- Runs a step with one more frame, which goes with whatever the step bound in it. -/
def inFrame (frame : Frame α) (step : EvalM α β) : EvalM α β := fun scope =>
  match step (scope.push frame) with
  | .ok value inside => .ok value inside.pop
  | .error error inside => .error error inside.pop

end EvalM

namespace Expr

variable {α : Type} [Scalar α]

/-- An operation on two evaluated operands. Only an assignment leaves its left operand
unevaluated, and it binds a symbol. -/
def operate (op : BinaryOp) (left right : Expr α) : EvalM α (Expr α) :=
  match op, left with
  | .assign, symbol target => EvalM.bindSymbol target right
  | op, left => EvalM.ofExcept (left.applyBinary op right)

/-- The number that a bound of an interval has to be. -/
def asBound (head : Symbol) (value : Expr α) : EvalM α α :=
  match value with
  | number x => return x
  | other => throw (.nonNumericBound head.name other.kind)

/-- What a call runs: a function of the scope, or a built-in one if the name is unbound. -/
inductive Callee (α : Type) where
  | user (parameters : List Symbol) (body : Expr α)
  | builtin (target : Builtin)

/-- What a name denotes as the head of a call. -/
def callee (head : Symbol) : EvalM α (Callee α) := do
  match (← get).get? head with
  | some (function _ parameters body) => return .user parameters body
  | some _ => throw (.notAFunction head.name)
  | none =>
    match Builtin.ofName? head.name with
    | some target => return .builtin target
    | none => throw (.undefinedVariable head.name)

/-- A call of what a name denotes. A function of the scope compares the number of arguments with
its own before they are evaluated, a built-in one afterwards. -/
def invoke (call : Call α) (head : Symbol) (count : Nat) (arguments : EvalM α (List (Expr α))) :
    EvalM α (Expr α) := do
  match ← callee head with
  | .builtin target =>
    let values ← arguments
    EvalM.ofExcept (target.call values)
  | .user parameters body =>
    if parameters.length = count then
      let values ← arguments
      call parameters body values
    else throw (.argumentMismatch head.name parameters.length count)

mutual

/-- The value of an expression, where `call` runs the bodies of functions. Behind curly brackets
stands an interval: the one that the head is bound to, or a new one that is bound to it. Round
and square brackets both call. -/
def evaluateWith (call : Call α) : Expr α → EvalM α (Expr α)
  | number value => return number value
  | interval value => return interval value
  | symbol value => do
    match (← get).get? value with
    | some bound => return bound
    | none => throw (.undefinedVariable value.name)
  | unary op operand => do
    let value ← evaluateWith call operand
    EvalM.ofExcept (value.applyUnary op)
  | binary op left right =>
    if op = .assign then do
      let right ← evaluateWith call right
      operate op left right
    else do
      let left ← evaluateWith call left
      let right ← evaluateWith call right
      operate op left right
  | branch condition consequence alternative => do
    let value ← evaluateWith call condition
    if value.isTrue then evaluateWith call consequence else evaluateWith call alternative
  | composite head arguments .curly => do
    match (← get).get? head with
    | some (interval existing) => return interval existing
    | _ => constructWith call head arguments
  | composite head arguments _ =>
    invoke call head arguments.length (evaluateAllWith call arguments)
  | function head parameters body =>
    EvalM.bindSymbol head (function head parameters body)

/-- The interval between two bounds, bound to a symbol. -/
def constructWith (call : Call α) (head : Symbol) : List (Expr α) → EvalM α (Expr α)
  | [low, high] => do
    let low ← asBound head (← evaluateWith call low)
    let high ← asBound head (← evaluateWith call high)
    EvalM.bindSymbol head (interval (.between low high))
  | arguments => throw (.argumentMismatch head.name 2 arguments.length)

def evaluateAllWith (call : Call α) : List (Expr α) → EvalM α (List (Expr α))
  | [] => return []
  | first :: rest => do
    let value ← evaluateWith call first
    return value :: (← evaluateAllWith call rest)

end

/-- Runs bodies with calls nested at most `depth` deep. -/
def callWithin : (depth : Nat) → Call α
  | 0 => fun _ _ _ => throw .callTooDeep
  | depth + 1 => fun parameters body arguments =>
    EvalM.inFrame (Frame.ofArguments parameters arguments)
      (evaluateWith (callWithin depth) body)

/-- The value of an expression, with calls nested at most `depth` deep. -/
def evaluate (depth : Nat) (expression : Expr α) : EvalM α (Expr α) :=
  evaluateWith (callWithin depth) expression

end Expr

end IntervalCalc
