/-! Places in a source text. -/

namespace IntervalCalc

/-- A place before a character or at the end of a text: the number of bytes before it, and its
line and column. Columns count characters, and only a line feed starts a line. -/
structure Location where
  offset : Nat
  line : Nat
  column : Nat
deriving DecidableEq

namespace Location

def start : Location :=
  ⟨0, 1, 1⟩

/-- The place behind a character. -/
def after (location : Location) (c : Char) : Location :=
  if c == '\n' then ⟨location.offset + c.utf8Size, location.line + 1, 1⟩
  else ⟨location.offset + c.utf8Size, location.line, location.column + 1⟩

def text (location : Location) : String :=
  s!"line {location.line}, column {location.column}"

end Location

end IntervalCalc
