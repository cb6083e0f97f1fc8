import IntervalCalc.Evaluation.Error
import IntervalCalc.Interval.Power
import IntervalCalc.Interval.Trig

/-! What the operations and the built-in functions do to values. -/

namespace IntervalCalc

variable {α : Type} [Scalar α]

abbrev ValueResult (α : Type) := Except (EvalError α) (Expr α)

/-- The interval that an operation on intervals gives, or its failure. -/
def IntervalError.lift (result : Except (IntervalError α) (Interval α)) : ValueResult α :=
  match result with
  | .ok x => .ok (.interval x)
  | .error error => .error (.interval error)

namespace Scalar

/-- The product of the numbers from 2 to `n`, in ascending order. -/
def naturalFactorial (n : Nat) : α :=
  (List.range' 2 (n - 1)).foldl (fun product k => product * NatCast.natCast k) 1

/-- Multiplies a product by `x`, `x - 1` and so on for as long as the factor exceeds one, in at
most `steps` steps. -/
def descendingProduct : (steps : Nat) → (x product : α) → α
  | 0, _, product => product
  | steps + 1, x, product =>
    if 1 < x then descendingProduct steps (x - 1) (product * x) else product

/-- The factorial. A natural number above 170 gives infinity; a number with a fractional part is
multiplied by the numbers one less and one less again that exceed one. The floor bounds how many
there are. -/
def factorial (x : α) : α :=
  if isIntegral x && 0 ≤ x then
    if NatCast.natCast 170 < x then infinity else naturalFactorial (floorNat x)
  else descendingProduct (floorNat x + 1) x 1

def applyUnary (op : UnaryOp) (x : α) : ValueResult α :=
  match op with
  | .plus => .ok (.number x)
  | .neg => .ok (.number (-x))
  | .increment => .ok (.number (x + 1))
  | .decrement => .ok (.number (x - 1))
  | .factorial => .ok (.number (factorial x))
  | .hash => .ok (.number (NatCast.natCast (fingerprint x)))
  | .copy => .error (.unaryUndefined .copy .number)

/-- The operations on two numbers. Comparisons give one or zero. -/
def applyBinary (op : BinaryOp) (x y : α) : ValueResult α :=
  match op with
  | .add => .ok (.number (x + y))
  | .sub => .ok (.number (x - y))
  | .mul => .ok (.number (x * y))
  | .div => .ok (.number (x / y))
  | .mod => .ok (.number (rem x y))
  | .pow => .ok (.number (pow x y))
  | .eq => .ok (.number (ofBool (x == y)))
  | .ne => .ok (.number (ofBool (!(x == y))))
  | .lt => .ok (.number (ofBool (x < y)))
  | .le => .ok (.number (ofBool (x ≤ y)))
  | .gt => .ok (.number (ofBool (y < x)))
  | .ge => .ok (.number (ofBool (y ≤ x)))
  | .sequence => .ok (.number y)
  | .assign => .error (.binaryUndefined .assign .number)

end Scalar

namespace Interval

def applyUnary (op : UnaryOp) (x : Interval α) : ValueResult α :=
  match op with
  | .plus | .copy => .ok (.interval x)
  | .neg => .ok (.interval (-x))
  | .increment => .ok (.interval (x.shift 1))
  | .decrement => .ok (.interval (x.shift (-1)))
  | .factorial => .error (.unaryUndefined .factorial .interval)
  | .hash => .error (.unaryUndefined .hash .interval)

/-- The operations on two intervals. Intervals are equal if their bounds are. -/
def applyBinary (op : BinaryOp) (x y : Interval α) : ValueResult α :=
  match op with
  | .add => .ok (.interval (x + y))
  | .sub => .ok (.interval (x - y))
  | .mul => .ok (.interval (x * y))
  | .div => IntervalError.lift (x.div y)
  | .eq => .ok (.number (Scalar.ofBool (x.sameBounds y)))
  | .ne => .ok (.number (Scalar.ofBool (!x.sameBounds y)))
  | op => .error (.binaryUndefined op .interval)

end Interval

/-- Whether an operation takes a number for a point when the other operand is an interval. -/
def BinaryOp.promotes : BinaryOp → Bool
  | add | sub | mul | div | eq | ne => true
  | _ => false

namespace Expr

def applyUnary (op : UnaryOp) : Expr α → ValueResult α
  | number x => Scalar.applyUnary op x
  | interval x => Interval.applyUnary op x
  | other => .error (.unaryUndefined op other.kind)

/-- An operation on two values, other than an assignment to a symbol. A sequence has the value
of its right operand whatever the left one is. An interval is raised to numbers only. -/
def applyBinary (op : BinaryOp) (left right : Expr α) : ValueResult α :=
  if op = .sequence then .ok right
  else
    match left, right with
    | number x, number y => Scalar.applyBinary op x y
    | number x, interval y =>
      if op.promotes then Interval.applyBinary op (.point x) y
      else .error (.operandMismatch op .number .interval)
    | number _, other => .error (.operandMismatch op .number other.kind)
    | interval x, number y =>
      if op = .pow then IntervalError.lift (x.pow y)
      else Interval.applyBinary op x (.point y)
    | interval x, interval y =>
      if op = .pow then .error (.operandMismatch .pow .interval .interval)
      else Interval.applyBinary op x y
    | interval _, other =>
      if op = .pow then .error (.operandMismatch .pow .interval other.kind)
      else .error (.binaryUndefined op .interval)
    | other, _ => .error (.binaryUndefined op other.kind)

end Expr

namespace Builtin

/-- The interval that an argument stands for. A number stands for a point. -/
def operand (builtin : Builtin) : Expr α → Except (EvalError α) (Interval α)
  | .interval x => .ok x
  | .number x => .ok (.point x)
  | other => .error (.nonIntervalArgument builtin other.kind)

/-- The value of a function for its operands. The hull is the one function that uses more than
the first. -/
def apply (x : Interval α) (rest : List (Interval α)) : Builtin → ValueResult α
  | sin => .ok (.interval x.sin)
  | cos => .ok (.interval x.cos)
  | tan => .ok (.interval x.tan)
  | cot => .ok (.interval x.cot)
  | asin => IntervalError.lift x.asin
  | log => IntervalError.lift x.log
  | log10 => IntervalError.lift x.log10
  | exp => .ok (.interval x.exp)
  | hull => .ok (.interval (rest.foldl Interval.hull x))
  | width => .ok (.number x.width)
  | mid => .ok (.number x.midpoint)
  | mag => .ok (.number x.magnitude)
  | mig => .ok (.number x.mignitude)
  | inf => .ok (.number x.inf)
  | sup => .ok (.number x.sup)

/-- Calls a function with values. The number of arguments is checked before their kinds. -/
def call (builtin : Builtin) (arguments : List (Expr α)) : ValueResult α :=
  if arguments.length = builtin.arity then
    match arguments.mapM builtin.operand with
    | .ok (x :: rest) => builtin.apply x rest
    | .ok [] => .error (.argumentMismatch builtin.name builtin.arity 0)
    | .error error => .error error
  else .error (.argumentMismatch builtin.name builtin.arity arguments.length)

end Builtin

end IntervalCalc
