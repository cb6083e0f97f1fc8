/-! The operations that expressions are built with. -/

namespace IntervalCalc

inductive UnaryOp where
  | plus
  | neg
  | increment
  | decrement
  | factorial
  | hash
  | copy
deriving DecidableEq

namespace UnaryOp

def all : List UnaryOp :=
  [plus, neg, increment, decrement, factorial, hash, copy]

def text : UnaryOp → String
  | plus => "+"
  | neg => "-"
  | increment => "++"
  | decrement => "--"
  | factorial => "!"
  | hash => "@"
  | copy => "="

/-- The word for the operation in the dump of a tree. -/
def word : UnaryOp → String
  | plus => "Plus"
  | neg => "Neg"
  | increment => "Increment"
  | decrement => "Decrement"
  | factorial => "Factorial"
  | hash => "Hash"
  | copy => "Copy"

def ofText? (text : String) : Option UnaryOp :=
  all.find? fun op => op.text == text

end UnaryOp

inductive BinaryOp where
  | sequence
  | assign
  | eq
  | ne
  | lt
  | le
  | gt
  | ge
  | add
  | sub
  | mul
  | div
  | mod
  | pow
deriving DecidableEq

namespace BinaryOp

def all : List BinaryOp :=
  [sequence, assign, eq, ne, lt, le, gt, ge, add, sub, mul, div, mod, pow]

def text : BinaryOp → String
  | sequence => ";"
  | assign => "="
  | eq => "=="
  | ne => "!="
  | lt => "<"
  | le => "<="
  | gt => ">"
  | ge => ">="
  | add => "+"
  | sub => "-"
  | mul => "*"
  | div => "/"
  | mod => "%"
  | pow => "^"

def word : BinaryOp → String
  | sequence => "Sequence"
  | assign => "Assign"
  | eq => "Eq"
  | ne => "Neq"
  | lt => "Lt"
  | le => "Leq"
  | gt => "Gt"
  | ge => "Geq"
  | add => "Add"
  | sub => "Sub"
  | mul => "Mul"
  | div => "Div"
  | mod => "Mod"
  | pow => "Pow"

def ofText? (text : String) : Option BinaryOp :=
  all.find? fun op => op.text == text

end BinaryOp

inductive Bracket where
  | round
  | square
  | curly
deriving DecidableEq

namespace Bracket

def opening : Bracket → String
  | round => "("
  | square => "["
  | curly => "\x7b"

def closing : Bracket → String
  | round => ")"
  | square => "]"
  | curly => "\x7d"

def word : Bracket → String
  | round => "Round"
  | square => "Square"
  | curly => "Curly"

end Bracket

end IntervalCalc
