import IntervalCalc.Expr.Operation
import IntervalCalc.Interval.Basic
import IntervalCalc.Symbol

/-! Expressions. The values of the language are expressions too. -/

namespace IntervalCalc

/-- An expression over a number type. A composite is a head with bracketed arguments, such as a
call, and a function is its own definition. -/
inductive Expr (α : Type) where
  | number (value : α)
  | interval (value : Interval α)
  | symbol (value : Symbol)
  | unary (op : UnaryOp) (operand : Expr α)
  | binary (op : BinaryOp) (left right : Expr α)
  | branch (condition consequence alternative : Expr α)
  | composite (head : Symbol) (arguments : List (Expr α)) (bracket : Bracket)
  | function (head : Symbol) (parameters : List Symbol) (body : Expr α)

inductive ExprKind where
  | number
  | interval
  | symbol
  | unary
  | binary
  | branch
  | composite
  | function
deriving DecidableEq

def ExprKind.text : ExprKind → String
  | number => "number"
  | interval => "interval"
  | symbol => "symbol"
  | unary => "unary operation"
  | binary => "binary operation"
  | branch => "branch"
  | composite => "composite"
  | function => "function"

namespace Expr

variable {α : Type}

def kind : Expr α → ExprKind
  | number _ => .number
  | interval _ => .interval
  | symbol _ => .symbol
  | unary .. => .unary
  | binary .. => .binary
  | branch .. => .branch
  | composite .. => .composite
  | function .. => .function

def number? : Expr α → Option α
  | number value => some value
  | _ => none

def interval? : Expr α → Option (Interval α)
  | interval value => some value
  | _ => none

/-- Only the number zero is false. -/
def isTrue [Scalar α] : Expr α → Bool
  | number value => !(value == 0)
  | _ => true

end Expr

end IntervalCalc
