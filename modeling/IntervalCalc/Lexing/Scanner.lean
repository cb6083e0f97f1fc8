import IntervalCalc.Lexing.Lexer

/-!
Lexers that move one cursor through the text. The place of the cursor is marked before a recognizer
is tried, and after one that declines the cursor goes back there.
-/

namespace IntervalCalc

/-- The cursor and the names seen so far. -/
structure Scanner where
  cursor : Cursor
  interner : Interner
deriving DecidableEq

/-- What a recognizer took: a token, or blanks. -/
inductive Taken (α : Type) where
  | token (kind : TokenKind α)
  | blank

abbrev ScanM := EStateM SyntaxError Scanner

namespace Scanner

variable {α : Type} [Scalar α] [Numeral α]

def move (change : Cursor → Cursor) : ScanM Unit :=
  modify fun scanner => { scanner with cursor := change scanner.cursor }

def advanceIf (c : Char) : ScanM Bool := do
  match (← get).cursor.advanceIf? c with
  | some cursor =>
    move fun _ => cursor
    return true
  | none => return false

/-- Passes the characters up to the first that fails the test, and counts them. -/
def advanceWhile (test : Char → Bool) : ScanM Nat := do
  let (count, cursor) := (← get).cursor.advanceWhile test
  move fun _ => cursor
  return count

def malformed {β : Type} (flaw : IntervalFlaw) : ScanM β := do
  throw ⟨.malformedInterval flaw, (← get).cursor.location⟩

omit [Scalar α] in
def bound : ScanM α := do
  match DecimalNumeral.read? (← get).cursor.rest with
  | none => malformed .missingBound
  | some numeral =>
    move (·.advanceOver numeral.lexeme)
    return numeral.value

/-- Passes a character that an interval literal has to have here. -/
def expect (c : Char) (flaw : IntervalFlaw) : ScanM Unit := do
  if ← advanceIf c then return () else malformed flaw

def interval : ScanM (Option (Taken α)) := do
  let cursor := (← get).cursor
  if cursor.peek 0 == some 'I' && cursor.peek 1 == some '\x7b' then
    move (·.advance 2)
    let low ← bound
    expect ',' .missingComma
    let high ← bound
    expect '\x7d' .missingBrace
    if ((← get).cursor.peek 0).any Unicode.isAlphanumeric then malformed .trailingCharacter
    else return some (.token (.literal (.interval (.between low high))))
  else return none

/-- Passes white space and comments in a text no longer than `bound`, and counts the characters. -/
def skipBlanks : (bound : List Char) → ScanM Nat
  | [] => advanceWhile Unicode.isBlank
  | _ :: bound => do
    let blanks ← advanceWhile Unicode.isBlank
    if ← advanceIf '#' then
      let comment ← advanceWhile (· != '\n')
      let others ← skipBlanks bound
      return blanks + (1 + comment) + others
    else return blanks

omit [Scalar α] [Numeral α] in
def whitespace : ScanM (Option (Taken α)) := do
  let skipped ← skipBlanks (← get).cursor.rest
  return if skipped > 0 then some .blank else none

omit [Scalar α] [Numeral α] in
/-- Goes where a recognizer ended that looked at the text before it moved. -/
def settle : Scan α → ScanM (Option (Taken α))
  | .declined => return none
  | .blank after => do
    move fun _ => after
    return some .blank
  | .token kind after interner => do
    set (Scanner.mk after interner)
    return some (.token kind)

/-- Tries a recognizer. -/
def recognize (recognizer : Recognizer) (position : Position) (vocabulary : Vocabulary) :
    ScanM (Option (Taken α)) := do
  let scanner ← get
  match recognizer with
  | .interval => interval
  | .name => settle (Recognizer.scanName vocabulary scanner.interner scanner.cursor)
  | .number => settle (Recognizer.scanNumber position scanner.interner scanner.cursor)
  | .operator => settle (Recognizer.scanOperator vocabulary scanner.interner scanner.cursor)
  | .whitespace => whitespace

/-- Tries rules from the first one on, each of them from the same place. -/
def tryRules (position : Position) (vocabulary : Vocabulary) (place : Location) :
    List LexerRule → ScanM (Option (Taken α))
  | [] => return none
  | rule :: rules => do
    move Cursor.setMark
    match ← recognize rule.recognizer position vocabulary with
    | some taken => return some taken
    | none =>
      move (·.reset place)
      tryRules position vocabulary place rules

/-- The next token of a text no longer than `bound`. -/
def tokenWithin (lexer : Lexer) (position : Position) (vocabulary : Vocabulary) :
    (bound : List Char) → ScanM (Token α)
  | [] => return ⟨.endOfInput, (← get).cursor.location⟩
  | _ :: bound => do
    let cursor := (← get).cursor
    if cursor.isAtEnd then return ⟨.endOfInput, cursor.location⟩
    match ← tryRules position vocabulary cursor.location lexer.rules with
    | some (.token kind) => return ⟨kind, cursor.location⟩
    | some .blank => tokenWithin lexer position vocabulary bound
    | none =>
      let c := ((← get).cursor.peek 0).getD '\x00'
      throw ⟨.unexpectedCharacter c, cursor.location⟩

/-- Moves behind the next token. -/
def token (lexer : Lexer) (position : Position) (vocabulary : Vocabulary) : ScanM (Token α) := do
  tokenWithin lexer position vocabulary (← get).cursor.rest

end Scanner

namespace Lexer

/-- Adds a recognizer at the place that a search finds for it: before the first rule of a lower
level. -/
def registerBy (search : (LexerRule → Bool) → List LexerRule → Nat) (lexer : Lexer)
    (rule : LexerRule) : Lexer :=
  ⟨lexer.rules.insertIdx (search (rule.level ≤ ·.level) lexer.rules) rule⟩

/-- Halves the places from `low` to `high` until one is left, in no more than `bound` steps. -/
def bisectBetween (test : LexerRule → Bool) (rules : List LexerRule) :
    (bound : Nat) → (low high : Nat) → Nat
  | 0, low, _ => low
  | bound + 1, low, high =>
    let middle := (low + high) / 2
    if high ≤ low then low
    else if rules[middle]?.any test then bisectBetween test rules bound (middle + 1) high
    else bisectBetween test rules bound low middle

/-- The number of rules that pass a test, if they stand before all that do not. -/
def bisect (test : LexerRule → Bool) (rules : List LexerRule) : Nat :=
  bisectBetween test rules rules.length 0 rules.length

end Lexer

end IntervalCalc
