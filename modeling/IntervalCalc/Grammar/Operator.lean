import IntervalCalc.Expr.Operation
import IntervalCalc.OrderedMap
import IntervalCalc.Symbol

/-!
Operators. An operator has a rule for the place where an expression begins, a rule for the place
behind a complete operand, both or neither. Binding powers decide how far an operand extends.
-/

namespace IntervalCalc

/-- The strength with which an operator holds its operands. -/
abbrev Power := Nat

/-- Whether a declared operator stands before its operand or between two. -/
inductive Fixity where
  | prefixed
  | infixed
deriving DecidableEq

def Fixity.text : Fixity → String
  | prefixed => "prefix"
  | infixed => "infix"

/-- What an operator does where an expression begins. -/
inductive PrefixRule where
  | unary (op : UnaryOp) (power : Power)
  /-- A call of the head with the operand behind it. -/
  | apply (head : Symbol) (power : Power)
  /-- An expression up to the closing bracket. -/
  | group (closing : String)
  /-- `if condition then expression else expression end`. -/
  | branch
  /-- `fun head(parameters) is body end`. -/
  | function
  | declare (fixity : Fixity)
deriving DecidableEq

/-- What an operator does behind a complete operand. -/
inductive InfixRule where
  | binary (op : BinaryOp) (rightAssociative : Bool)
  | postfixed (op : UnaryOp)
  | apply (head : Symbol)
  /-- Arguments up to the closing bracket, for the symbol before it. -/
  | composite (closing : String) (bracket : Bracket)
  /-- `expression if condition else expression`. -/
  | branch
deriving DecidableEq

/-- The rules of an operator. The left power holds the operand before it. -/
structure Operator where
  leftPower : Power
  prefixRule : Option PrefixRule
  infixRule : Option InfixRule
deriving DecidableEq

namespace Operator

/-- An operator without rules, such as a closing bracket. -/
def closer : Operator :=
  ⟨0, none, none⟩

def prefixed (rule : PrefixRule) : Operator :=
  ⟨0, some rule, none⟩

def infixed (power : Power) (rule : InfixRule) : Operator :=
  ⟨power, none, some rule⟩

def withPrefix (operator : Operator) (rule : PrefixRule) : Operator :=
  { operator with prefixRule := some rule }

def binary (power : Power) (op : BinaryOp) : Operator :=
  infixed power (.binary op false)

def rightBinary (power : Power) (op : BinaryOp) : Operator :=
  infixed power (.binary op true)

/-- The place of an operator that has a rule. An infix rule counts first. -/
def fixity (operator : Operator) : Option Fixity :=
  match operator.infixRule, operator.prefixRule with
  | some _, _ => some .infixed
  | none, some _ => some .prefixed
  | none, none => none

end Operator

abbrev OperatorTable := OrderedMap String Operator

namespace OperatorTable

/-- An opening bracket groups an expression, and behind a symbol it begins arguments. -/
def opener (bracket : Bracket) : String × Operator :=
  (bracket.opening,
    (Operator.infixed 200 (.composite bracket.closing bracket)).withPrefix
      (.group bracket.closing))

def standard : OperatorTable :=
  ⟨[(";", .binary 10 .sequence),
    ("=", (Operator.rightBinary 20 .assign).withPrefix (.unary .copy 80)),
    ("fun", .prefixed .function),
    ("if", (Operator.infixed 30 .branch).withPrefix .branch),
    ("==", .binary 40 .eq),
    ("!=", .binary 40 .ne),
    ("<", .binary 40 .lt),
    ("<=", .binary 40 .le),
    (">", .binary 40 .gt),
    (">=", .binary 40 .ge),
    ("+", (Operator.binary 50 .add).withPrefix (.unary .plus 100)),
    ("-", (Operator.binary 50 .sub).withPrefix (.unary .neg 100)),
    ("*", .binary 60 .mul),
    ("/", .binary 60 .div),
    ("%", .binary 60 .mod),
    ("^", .rightBinary 70 .pow),
    ("++", (Operator.infixed 80 (.postfixed .increment)).withPrefix (.unary .increment 80)),
    ("--", (Operator.infixed 80 (.postfixed .decrement)).withPrefix (.unary .decrement 80)),
    ("!", .infixed 80 (.postfixed .factorial)),
    ("@", .prefixed (.unary .hash 80)),
    ("prefix", .prefixed (.declare .prefixed)),
    ("infix", .prefixed (.declare .infixed)),
    opener .round,
    opener .square,
    opener .curly,
    (")", .closer),
    ("]", .closer),
    ("\x7d", .closer),
    (",", .closer),
    ("then", .closer),
    ("else", .closer),
    ("end", .closer),
    ("is", .closer)]⟩

end OperatorTable

end IntervalCalc
