import IntervalCalc.Unicode.Blank

/-! The lines that a session understands. -/

namespace IntervalCalc

/-- What a line asks for. -/
inductive Command where
  | nothing
  | program (source : String)
  | quit
  | help (topics : List String)
  | definitions
  | operators
  | setting (name : Option String)
  /-- Forgets some names, or everything if there are none. -/
  | reset (names : List String)
  | load (name : Option String)
  | unknown (letter : Char)
deriving DecidableEq

def trimBlanks (text : List Char) : List Char :=
  ((text.dropWhile Unicode.isBlank).reverse.dropWhile Unicode.isBlank).reverse

/-- The words of a text behind the letters `word` of a word that has begun. -/
def wordsAfter (word : List Char) : List Char → List (List Char)
  | [] => if word.isEmpty then [] else [word.reverse]
  | c :: rest =>
    if !Unicode.isBlank c then wordsAfter (c :: word) rest
    else if word.isEmpty then wordsAfter [] rest
    else word.reverse :: wordsAfter [] rest

/-- The stretches of a text between its blanks. -/
def blankSeparated (text : List Char) : List String :=
  (wordsAfter [] text).map String.ofList

namespace Command

/-- The command of a letter and the words behind it. -/
def ofLetter (letter : Char) (words : List String) : Command :=
  match letter with
  | 'q' => quit
  | 'h' => help words
  | 'l' => definitions
  | 'o' => operators
  | 's' => setting words.head?
  | 'r' => reset words
  | 'e' => load words.head?
  | letter => unknown letter

/-- Reads a line. A colon makes it a command, the letter of which needs no blank behind it. -/
def ofLine (line : String) : Command :=
  match trimBlanks line.toList with
  | [] => nothing
  | [':'] => nothing
  | ':' :: letter :: rest => ofLetter letter (blankSeparated rest)
  | text => program (String.ofList text)

end Command

end IntervalCalc
