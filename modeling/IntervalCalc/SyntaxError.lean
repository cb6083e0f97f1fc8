import IntervalCalc.Lexing.Location

/-! Why a text is no expression, and where. -/

namespace IntervalCalc

inductive IntervalFlaw where
  | missingBound
  | missingComma
  | missingBrace
  | trailingCharacter
deriving DecidableEq

def IntervalFlaw.text : IntervalFlaw → String
  | missingBound => "expected a bound"
  | missingComma => "expected ','"
  | missingBrace => "missing '\x7d'"
  | trailingCharacter => "unexpected trailing character"

/-- A role that only some expressions can play. -/
inductive OperandRole where
  | compositeHead
  | functionSignature
  | parameter
  | operatorName
deriving DecidableEq

def OperandRole.text : OperandRole → String
  | compositeHead => "the head of a composite"
  | functionSignature => "a function signature"
  | parameter => "a parameter"
  | operatorName => "an operator name"

inductive SyntaxFault where
  | unexpectedCharacter (c : Char)
  | malformedInterval (flaw : IntervalFlaw)
  | unexpectedEnd
  | unexpectedToken (found : String)
  | expected (wanted found : String)
  | invalidOperand (role : OperandRole) (found : String)
  | invalidPower (found : String)
deriving DecidableEq

def SyntaxFault.message : SyntaxFault → String
  | unexpectedCharacter c => s!"unexpected character '{c}'"
  | malformedInterval flaw => s!"malformed interval literal, {flaw.text}"
  | unexpectedEnd => "unexpected end of input"
  | unexpectedToken found => s!"unexpected '{found}'"
  | expected wanted found => s!"expected '{wanted}' but found '{found}'"
  | invalidOperand role found => s!"'{found}' cannot be used as {role.text}"
  | invalidPower found =>
    s!"binding power must be a non-negative integer, got '{found}'"

structure SyntaxError where
  fault : SyntaxFault
  location : Location
deriving DecidableEq

def SyntaxError.message (error : SyntaxError) : String :=
  s!"{error.fault.message} at {error.location.text}"

end IntervalCalc
