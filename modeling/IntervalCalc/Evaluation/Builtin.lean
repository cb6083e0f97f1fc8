/-! The functions of the language, by their names and numbers of arguments. -/

namespace IntervalCalc

/-- A function of intervals that can be called by name unless the name is bound. -/
inductive Builtin where
  | sin
  | cos
  | tan
  | cot
  | asin
  | log
  | log10
  | exp
  | hull
  | width
  | mid
  | mag
  | mig
  | inf
  | sup
deriving DecidableEq

namespace Builtin

def all : List Builtin :=
  [sin, cos, tan, cot, asin, log, log10, exp, hull, width, mid, mag, mig, inf, sup]

def name : Builtin → String
  | sin => "sin"
  | cos => "cos"
  | tan => "tan"
  | cot => "cot"
  | asin => "asin"
  | log => "log"
  | log10 => "log10"
  | exp => "exp"
  | hull => "hull"
  | width => "width"
  | mid => "mid"
  | mag => "mag"
  | mig => "mig"
  | inf => "inf"
  | sup => "sup"

def ofName? (name : String) : Option Builtin :=
  all.find? fun builtin => builtin.name == name

def arity : Builtin → Nat
  | hull => 2
  | _ => 1

end Builtin

end IntervalCalc
