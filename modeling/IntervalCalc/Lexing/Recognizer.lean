import IntervalCalc.Lexing.Cursor
import IntervalCalc.Lexing.Lexeme
import IntervalCalc.Lexing.Token
import IntervalCalc.SyntaxError
import IntervalCalc.Unicode.Alphanumeric

/-!
The five recognizers of the language. Each looks at the text behind the cursor and declines it,
passes over it, makes a token of it, or finds it malformed. A parser with recognizers of its own
reads by another `Reader`, and an engine over it has another way of parsing.
-/

namespace IntervalCalc

/-- The names of the operators, in any order. -/
abbrev Vocabulary := List String

/-- The longest operator that the text begins with and that is not spelled like a name. One with
the empty name begins every text. -/
def Vocabulary.longestSymbol? (vocabulary : Vocabulary) (text : List Char) : Option String :=
  let fits (name : String) : Bool := name.toList.isPrefixOf text && !isIdentifier name.toList
  (vocabulary.filter fits).foldl
    (fun longest name =>
      match longest with
      | none => some name
      | some best => if best.length < name.length then some name else some best)
    none

/-- What a recognizer makes of the text behind the cursor. -/
inductive Scan (α : Type) where
  | declined
  | blank (after : Cursor)
  | token (kind : TokenKind α) (after : Cursor) (interner : Interner)

inductive Recognizer where
  | interval
  | name
  | number
  | operator
  | whitespace
deriving DecidableEq

namespace Recognizer

variable {α : Type} [Scalar α] [Numeral α]

def malformed {β : Type} (flaw : IntervalFlaw) (cursor : Cursor) : Except SyntaxError β :=
  .error ⟨.malformedInterval flaw, cursor.location⟩

/-- A bound of an interval literal is a numeral without a sign. -/
def scanBound (cursor : Cursor) : Except SyntaxError (α × Cursor) :=
  match DecimalNumeral.read? cursor.rest with
  | none => malformed .missingBound cursor
  | some numeral => .ok (numeral.value, cursor.advanceOver numeral.lexeme)

/-- An interval literal is `I` and two bounds in curly brackets, without blanks, and no letter
or digit may follow it. Whatever begins with `I` and a bracket has to be one. -/
def scanInterval (interner : Interner) (cursor : Cursor) : Except SyntaxError (Scan α) :=
  if cursor.peek 0 == some 'I' && cursor.peek 1 == some '{' then do
    let (low, cursor) ← scanBound (cursor.advance 2)
    let some cursor := cursor.advanceIf? ',' | malformed .missingComma cursor
    let (high, cursor) ← scanBound cursor
    let some cursor := cursor.advanceIf? '}' | malformed .missingBrace cursor
    if (cursor.peek 0).any Unicode.isAlphanumeric then malformed .trailingCharacter cursor
    else .ok (.token (.literal (.interval (.between low high))) cursor interner)
  else .ok .declined

/-- A name is an operator if the vocabulary has it, and otherwise a symbol, which gets a handle
as it is read. -/
def scanName (vocabulary : Vocabulary) (interner : Interner) (cursor : Cursor) : Scan α :=
  match nameLexeme cursor.rest with
  | [] => .declined
  | lexeme =>
    let name := String.ofList lexeme
    let after := cursor.advanceOver lexeme
    if vocabulary.contains name then .token (.operator name) after interner
    else
      let (symbol, interner) := interner.intern name
      .token (.literal (.symbol symbol)) after interner

/-- A number is a numeral, and where an operand may begin it can have a sign. -/
def scanNumber (position : Position) (interner : Interner) (cursor : Cursor) : Scan α :=
  let sign := if position = .operand then sign? cursor.rest else none
  match sign with
  | none =>
    match DecimalNumeral.read? cursor.rest with
    | none => .declined
    | some numeral =>
      .token (.literal (.number numeral.value)) (cursor.advanceOver numeral.lexeme) interner
  | some (negative, rest) =>
    match DecimalNumeral.read? rest with
    | none => .declined
    | some numeral =>
      let value : α := if negative then -numeral.value else numeral.value
      .token (.literal (.number value)) ((cursor.advance 1).advanceOver numeral.lexeme) interner

/-- The longest operator that is not spelled like a name. -/
def scanOperator (vocabulary : Vocabulary) (interner : Interner) (cursor : Cursor) : Scan α :=
  match vocabulary.longestSymbol? cursor.rest with
  | none => .declined
  | some symbol => .token (.operator symbol) (cursor.advanceOver symbol.toList) interner

def scanBlank (cursor : Cursor) : Scan α :=
  match blankLength false cursor.rest with
  | 0 => .declined
  | length => .blank (cursor.advance length)

def scan (recognizer : Recognizer) (position : Position) (vocabulary : Vocabulary)
    (interner : Interner) (cursor : Cursor) : Except SyntaxError (Scan α) :=
  match recognizer with
  | interval => scanInterval interner cursor
  | name => .ok (scanName vocabulary interner cursor)
  | number => .ok (scanNumber position interner cursor)
  | operator => .ok (scanOperator vocabulary interner cursor)
  | whitespace => .ok (scanBlank cursor)

end Recognizer

end IntervalCalc
