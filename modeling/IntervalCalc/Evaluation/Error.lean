import IntervalCalc.Evaluation.Builtin
import IntervalCalc.Expr.Text

/-! Why an expression has no value. -/

namespace IntervalCalc

inductive EvalError (α : Type) where
  | unaryUndefined (op : UnaryOp) (operand : ExprKind)
  | binaryUndefined (op : BinaryOp) (left : ExprKind)
  | operandMismatch (op : BinaryOp) (left right : ExprKind)
  | undefinedVariable (name : String)
  | notAFunction (name : String)
  | argumentMismatch (name : String) (expected got : Nat)
  | nonNumericBound (name : String) (got : ExprKind)
  | nonIntervalArgument (function : Builtin) (got : ExprKind)
  | interval (error : IntervalError α)
  /-- Calls are nested so deeply that the stack of the machine is exhausted. -/
  | callTooDeep

variable {α : Type} [Numeral α]

def IntervalError.message : IntervalError α → String
  | containsZero divisor => s!"the interval {divisor.text} contains zero"
  | outsideDomain function argument =>
    s!"{argument.text} is outside the domain of {function}"
  | nonRealPower base power =>
    s!"cannot raise {base.text} to the non-integral power {Numeral.text power}"

def EvalError.message : EvalError α → String
  | unaryUndefined op operand => s!"operation '{op.text}' not implemented for {operand.text}"
  | binaryUndefined op left => s!"operation '{op.text}' not implemented for {left.text}"
  | operandMismatch op left right =>
    s!"operation '{op.text}' not implemented between {left.text} and {right.text}"
  | undefinedVariable name => s!"undefined variable '{name}'"
  | notAFunction name => s!"'{name}' is not a function"
  | argumentMismatch name expected got =>
    s!"argument mismatch for {name}, expected {expected} but got {got}"
  | nonNumericBound name got => s!"bound of interval {name} must be a number, got {got.text}"
  | nonIntervalArgument function got =>
    s!"{function.name} expects intervals or numbers, got {got.text}"
  | interval error => error.message
  | callTooDeep => "calls are nested too deeply"

end IntervalCalc
