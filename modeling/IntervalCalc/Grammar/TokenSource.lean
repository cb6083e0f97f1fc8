import IntervalCalc.Grammar.Operator
import IntervalCalc.Lexing.Lexer

/-!
Where a parse takes its tokens from. The grammar may change between two tokens, so a token is
read only when it is asked for, in the position asked for and with the operators of the moment.
The source of a parse keeps at most one token that was looked at.
-/

namespace IntervalCalc

/-- The operators, the names seen so far, and a place in the text. -/
structure ParseState where
  operators : OperatorTable
  interner : Interner
  cursor : Cursor

/-- A step of a parse. Its state survives an error. -/
abbrev ParseM (σ : Type) := EStateM SyntaxError σ

/-- The operator that a declaration declares: a call of the function of its name. -/
def declaredOperator (fixity : Fixity) (head : Symbol) (power : Power) : Operator :=
  match fixity with
  | .prefixed => .prefixed (.apply head power)
  | .infixed => .infixed power (.apply head)

/-- Names an operator and adds it to the grammar. It replaces any other of its name. -/
def ParseState.declare (state : ParseState) (name : String) (fixity : Fixity) (power : Power) :
    ParseState :=
  let (head, interner) := state.interner.intern name
  { state with
    interner
    operators := state.operators.insert name (declaredOperator fixity head power) }

/-- A way to read the next token of a text. -/
abbrev Reader (α : Type) :=
  Position → Vocabulary → Interner → Cursor → Except SyntaxError (Lexer.Reading α)

/-- What a parse over states of a type asks of them. -/
structure TokenSource (α σ : Type) where
  view : σ → ParseState
  next : Position → ParseM σ (Token α)
  peek : Position → ParseM σ (Token α)
  declare : (name : String) → Fixity → Power → ParseM σ Unit

/-- A parse that has looked ahead by at most one token. The cursor is behind that token, which is
kept with the position that it was read for. -/
structure BufferedState (α : Type) extends ParseState where
  buffer : Option (Position × Token α)

namespace BufferedState

variable {α : Type}

/-- Drops the token that was looked at, and goes back to where it begins. -/
def rewind (state : BufferedState α) : BufferedState α :=
  match state.buffer with
  | none => state
  | some (_, token) =>
    { state with cursor := state.cursor.reset token.location, buffer := none }

def read (reader : Reader α) (position : Position) : ParseM (BufferedState α) (Token α) :=
  fun state =>
    match reader position state.operators.keys state.interner state.cursor with
    | .error error => .error error state
    | .ok r => .ok r.token { state with interner := r.interner, cursor := r.cursor }

/-- Consumes the next token. One that was looked at in another position is read again. -/
def next (reader : Reader α) (position : Position) : ParseM (BufferedState α) (Token α) :=
  fun state =>
    match state.buffer with
    | none => read reader position state
    | some (buffered, token) =>
      if buffered = position then .ok token { state with buffer := none }
      else read reader position state.rewind

/-- Looks at the next token, and keeps it. -/
def peek (reader : Reader α) (position : Position) : ParseM (BufferedState α) (Token α) :=
  fun state =>
    match next reader position state with
    | .error error state => .error error state
    | .ok token state => .ok token { state with buffer := some (position, token) }

/-- Adds an operator. The token that was looked at may spell it, and is dropped. -/
def declare (name : String) (fixity : Fixity) (power : Power) : ParseM (BufferedState α) Unit :=
  fun state =>
    let declared := state.toParseState.declare name fixity power
    .ok () (BufferedState.rewind ⟨declared, state.buffer⟩)

end BufferedState

/-- The tokens of a text, read with a buffer for one of them. -/
def TokenSource.buffered {α : Type} (reader : Reader α) : TokenSource α (BufferedState α) where
  view := BufferedState.toParseState
  next := BufferedState.next reader
  peek := BufferedState.peek reader
  declare := BufferedState.declare

end IntervalCalc
