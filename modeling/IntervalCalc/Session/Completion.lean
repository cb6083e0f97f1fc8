import IntervalCalc.Evaluation.Builtin

/-! Completion of the name at the end of a line. -/

namespace IntervalCalc

/-- A name that may be meant, and the text to put in place of what was typed. -/
structure Candidate where
  name : String
  replacement : String
deriving DecidableEq

/-- The byte where the replaced text begins, and the candidates for it. -/
structure Completion where
  start : Nat
  candidates : List Candidate
deriving DecidableEq

namespace Completion

def keywords : List String :=
  ["fun", "is", "end", "if", "then", "else", "prefix", "infix"]

def isWordChar (c : Char) : Bool :=
  ('a' ≤ c && c ≤ 'z') || c.isDigit

/-- The word that a line ends in. -/
def lastWord (line : List Char) : List Char :=
  (line.reverse.takeWhile isWordChar).reverse

/-- The functions and keywords that begin with a word. A function is followed by a bracket, and
a keyword by a blank. -/
def matching (word : List Char) : List Candidate :=
  let begins (name : String) : Bool := word.isPrefixOf name.toList
  ((Builtin.all.map Builtin.name).filter begins).map (fun name => ⟨name, name ++ "("⟩)
    ++ (keywords.filter begins).map (fun name => ⟨name, name ++ " "⟩)

/-- The completion at a byte of a line. Only at the end of the line is there anything to
complete. -/
def atByte (line : String) (position : Nat) : Completion :=
  let word := lastWord line.toList
  if position == line.utf8ByteSize && !word.isEmpty then
    ⟨position - word.length, matching word⟩
  else ⟨0, []⟩

end Completion

end IntervalCalc
