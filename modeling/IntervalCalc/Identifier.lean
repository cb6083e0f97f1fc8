import IntervalCalc.Unicode.Letter
import IntervalCalc.Unicode.Number

/-! The spelling of names. -/

namespace IntervalCalc

/-- A name begins with a letter or an underscore. -/
def isNameStart (c : Char) : Bool :=
  c == '_' || Unicode.isLetter c

/-- A name continues with letters, numeric characters and underscores. -/
def isNamePart (c : Char) : Bool :=
  c == '_' || Unicode.isLetter c || Unicode.isNumber c

def isIdentifier : List Char → Bool
  | [] => false
  | c :: rest => isNameStart c && rest.all isNamePart

end IntervalCalc
