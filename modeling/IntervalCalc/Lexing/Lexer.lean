import IntervalCalc.Lexing.Recognizer

/-!
Lexers. A lexer tries its recognizers from the highest level down, and the first one that does
not decline decides what the text behind the cursor is.
-/

namespace IntervalCalc

/-- A recognizer with the name and the level that it is registered under. -/
structure LexerRule where
  name : String
  recognizer : Recognizer
  level : Nat
deriving DecidableEq

/-- The registered recognizers in the order in which they are tried. -/
structure Lexer where
  rules : List LexerRule
deriving DecidableEq

namespace Lexer

def empty : Lexer :=
  ⟨[]⟩

/-- Adds a recognizer. Among equal levels the earlier one is tried first. -/
def register (lexer : Lexer) (rule : LexerRule) : Lexer :=
  ⟨lexer.rules.takeWhile (rule.level ≤ ·.level) ++
    rule :: lexer.rules.dropWhile (rule.level ≤ ·.level)⟩

def standard : Lexer :=
  [⟨"interval", .interval, 60⟩, ⟨"name", .name, 50⟩, ⟨"number", .number, 20⟩,
    ⟨"operator", .operator, 10⟩, ⟨"whitespace", .whitespace, 0⟩].foldl register empty

variable {α : Type} [Scalar α] [Numeral α]

/-- What the first of the rules that does not decline makes of the text. -/
def firstScan (position : Position) (vocabulary : Vocabulary) (interner : Interner)
    (cursor : Cursor) : List LexerRule → Except SyntaxError (Scan α)
  | [] => .ok .declined
  | rule :: rules =>
    match rule.recognizer.scan position vocabulary interner cursor with
    | .ok .declined => firstScan position vocabulary interner cursor rules
    | decided => decided

/-- A token with the cursor behind it and the names seen so far. -/
structure Reading (α : Type) where
  token : Token α
  cursor : Cursor
  interner : Interner

/-- The end of the text, read at the cursor. -/
def endReading (interner : Interner) (cursor : Cursor) : Reading α :=
  ⟨⟨.endOfInput, cursor.location⟩, cursor, interner⟩

/-- The next token, found within a number of rounds, of which all but the last pass over blanks.
What is found beyond them is given. -/
def nextOr (lexer : Lexer) (position : Position) (vocabulary : Vocabulary)
    (beyond : Except SyntaxError (Reading α)) (interner : Interner) :
    (rounds : Nat) → Cursor → Except SyntaxError (Reading α)
  | 0, _ => beyond
  | rounds + 1, cursor =>
    match cursor.rest with
    | [] => .ok (endReading interner cursor)
    | c :: _ =>
      match firstScan position vocabulary interner cursor lexer.rules with
      | .error error => .error error
      | .ok (.token kind after interner) => .ok ⟨⟨kind, cursor.location⟩, after, interner⟩
      | .ok (.blank after) => nextOr lexer position vocabulary beyond interner rounds after
      | .ok .declined => .error ⟨.unexpectedCharacter c, cursor.location⟩

/-- The next token. Blanks have characters, so that the rounds are never used up. -/
def next (lexer : Lexer) (position : Position) (vocabulary : Vocabulary) (interner : Interner)
    (cursor : Cursor) : Except SyntaxError (Reading α) :=
  lexer.nextOr position vocabulary (.ok (endReading interner cursor)) interner
    (cursor.rest.length + 1) cursor

/-- The tokens that are read one after the other in a number of rounds, up to the end of the text,
and the names seen. What they are beyond the rounds is given. -/
def tokensOr (next : Interner → Cursor → Except SyntaxError (Reading α))
    (beyond : Interner → Cursor → Except SyntaxError (List (Token α) × Interner)) :
    (rounds : Nat) → Interner → Cursor → Except SyntaxError (List (Token α) × Interner)
  | 0, interner, cursor => beyond interner cursor
  | rounds + 1, interner, cursor => do
    let reading ← next interner cursor
    match reading.token.kind with
    | .endOfInput => return ([], reading.interner)
    | _ =>
      let (tokens, interner) ← tokensOr next beyond rounds reading.interner reading.cursor
      return (reading.token :: tokens, interner)

/-- All tokens of a text, each read in the same position. The rounds are used up only if an operator
of empty name is read over and over. There is no last token then, and the error is that of the
operator. -/
def tokens (lexer : Lexer) (position : Position) (vocabulary : Vocabulary)
    (interner : Interner) (text : List Char) :
    Except SyntaxError (List (Token α) × Interner) :=
  let next := lexer.next position vocabulary
  let endless (interner : Interner) (cursor : Cursor) : Except SyntaxError _ := do
    let reading ← next interner cursor
    .error ⟨.unexpectedToken reading.token.kind.text, reading.token.location⟩
  tokensOr next endless (text.length + 1) interner (Cursor.ofList text)

end Lexer

end IntervalCalc
