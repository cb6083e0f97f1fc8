import IntervalCalc.Proofs.Lexing.Reading
import IntervalCalc.Proofs.Parsing.Simulation

/-!
The token that is looked at. A direct source keeps none: its cursor stands where the token
consumed last ends, and it reads from there whenever it is asked. The buffered source gives the
same tokens whatever is looked at, dropped, read again or declared in between, so a parse consumes
exactly the tokens of the text, each with the grammar of its moment.
-/

namespace IntervalCalc

variable {α β σ τ : Type}

/-- Only the operators spelled like names change with a declaration of a name. -/
theorem OperatorTable.symbols_insert {operators : OperatorTable} {name : String}
    (identifier : isIdentifier name.toList) (operator : Operator) :
    Vocabulary.symbols (operators.insert name operator).keys = Vocabulary.symbols operators.keys := by
  rw [OrderedMap.keys_insert]
  split
  · rfl
  · unfold Vocabulary.symbols
    rw [List.filter_append]
    simp [identifier]

section Direct

variable [Scalar α] [Numeral α]

/-- What is read next behind the token consumed last. -/
def ParseState.ahead (lexer : Lexer) (position : Position) (state : ParseState) :
    Except SyntaxError (Lexer.Reading α) :=
  lexer.next position state.operators.keys state.interner state.cursor

def ParseState.consume (state : ParseState) (r : Lexer.Reading α) : ParseState :=
  { state with interner := r.interner, cursor := r.cursor }

/-- The tokens of a text, each read from where the token consumed last ends. -/
def TokenSource.direct (lexer : Lexer) : TokenSource α ParseState where
  view state := state
  next position := fun state =>
    match state.ahead lexer position with
    | .error error => .error error state
    | .ok r => .ok r.token (state.consume r)
  peek position := fun state =>
    match state.ahead (α := α) lexer position with
    | .error error => .error error state
    | .ok r => .ok r.token { state with interner := r.interner }
  declare name fixity power := fun state => .ok () (state.declare name fixity power)

variable {lexer : Lexer} {position : Position} {state after : ParseState} {token : Token α}

theorem TokenSource.direct_next_error {error : SyntaxError}
    (read : state.ahead (α := α) lexer position = .error error) :
    (direct (α := α) lexer).next position state = .error error state := by
  simp only [direct, read]

theorem TokenSource.direct_peek_error {error : SyntaxError}
    (read : state.ahead (α := α) lexer position = .error error) :
    (direct (α := α) lexer).peek position state = .error error state := by
  simp only [direct, read]

theorem TokenSource.direct_next_ok :
    (direct lexer).next position state = .ok token after ↔
      ∃ r : Lexer.Reading α, state.ahead lexer position = .ok r ∧ token = r.token ∧
        after = state.consume r := by
  constructor
  · intro read
    cases ahead : state.ahead (α := α) lexer position with
    | error error => rw [direct_next_error ahead] at read; cases read
    | ok r =>
        simp only [direct, ahead] at read
        cases read
        exact ⟨r, rfl, rfl, rfl⟩
  · rintro ⟨r, ahead, rfl, rfl⟩
    simp only [direct, ahead]

theorem TokenSource.direct_peek_ok :
    (direct lexer).peek position state = .ok token after ↔
      ∃ r : Lexer.Reading α, state.ahead lexer position = .ok r ∧ token = r.token ∧
        after = { state with interner := r.interner } := by
  constructor
  · intro read
    cases ahead : state.ahead (α := α) lexer position with
    | error error => rw [direct_peek_error ahead] at read; cases read
    | ok r =>
        simp only [direct, ahead] at read
        cases read
        exact ⟨r, rfl, rfl, rfl⟩
  · rintro ⟨r, ahead, rfl, rfl⟩
    simp only [direct, ahead]

theorem ParseState.ahead_again {r : Lexer.Reading α} (read : state.ahead lexer position = .ok r) :
    ParseState.ahead lexer position { state with interner := r.interner } = .ok r :=
  (Lexer.lexes_of_next read).again.next

/-- A symbol that the direct source gives is spelled like a name. -/
theorem ParseState.named_of_ahead {r : Lexer.Reading α} (read : state.ahead lexer position = .ok r) :
    r.token.Named := by
  intro symbol literal
  rcases (Lexer.lexes_of_next read).progress with ⟨finished, _⟩ | ⟨spelled, _⟩
  · rw [finished] at literal
    cases literal
  · rw [literal] at spelled
    exact spelled

end Direct

section Buffer

variable [Scalar α] [Numeral α]

/-- What a buffered state holds, seen from the direct state with the same token consumed last. A
token in the buffer is the next one. Without it the cursor stands before the same tokens,
whichever names are operators. -/
structure BufferedState.Coherent (lexer : Lexer) (text : List Char) (buffered : BufferedState α)
    (direct : ParseState) : Prop where
  operators : buffered.operators = direct.operators
  interner : buffered.interner = direct.interner
  place : ∃ n, buffered.cursor = (Cursor.ofList text).advance n
  consumed : ∃ n, direct.cursor = (Cursor.ofList text).advance n
  empty : buffered.buffer = none → ∀ position (vocabulary : Vocabulary) interner,
    vocabulary.symbols = Vocabulary.symbols direct.operators.keys →
      lexer.next position vocabulary interner buffered.cursor =
        (lexer.next position vocabulary interner direct.cursor : Except _ (Lexer.Reading α))
  full : ∀ position token, buffered.buffer = some (position, token) →
    direct.ahead lexer position = .ok ⟨token, buffered.cursor, direct.interner⟩

namespace BufferedState.Coherent

variable {lexer : Lexer} {text : List Char} {buffered : BufferedState α} {direct : ParseState}

theorem clean {state : ParseState} (place : ∃ n, state.cursor = (Cursor.ofList text).advance n) :
    Coherent lexer text (⟨state, none⟩ : BufferedState α) state where
  operators := rfl
  interner := rfl
  place := place
  consumed := place
  empty _ _ _ _ _ := rfl
  full _ _ absurd := by cases absurd

/-- Going back to the token that was looked at leads to a place behind the token consumed last, from
which the same tokens are ahead. -/
theorem place_rewind (h : Coherent lexer text buffered direct) {position : Position}
    {token : Token α} (looked : buffered.buffer = some (position, token)) :
    ∃ m, buffered.cursor.reset token.location = direct.cursor.advance m ∧
      ∀ other vocabulary interner,
        Vocabulary.symbols direct.operators.keys = Vocabulary.symbols vocabulary →
        lexer.next other vocabulary interner direct.cursor =
          (lexer.next other vocabulary interner (direct.cursor.advance m) : Except _ (Lexer.Reading α)) := by
  have read := Lexer.lexes_of_next (h.full position token looked)
  obtain ⟨m, n, location, _, same⟩ := read.place
  obtain ⟨here, place⟩ := h.place
  obtain ⟨behind, consumed⟩ := h.consumed
  dsimp only at location
  refine ⟨m, ?_, same⟩
  rw [location, place, consumed, Cursor.advance_advance, Cursor.reset_location_advance]

/-- Going back to the token that was looked at, the same tokens are ahead. -/
theorem rewind (h : Coherent lexer text buffered direct) :
    Coherent lexer text buffered.rewind direct := by
  unfold BufferedState.rewind
  split
  · exact h
  next position token looked =>
    obtain ⟨m, back, same⟩ := h.place_rewind looked
    obtain ⟨behind, consumed⟩ := h.consumed
    refine ⟨h.operators, h.interner, ⟨behind + m, ?_⟩, ⟨behind, consumed⟩, ?_, ?_⟩
    · change buffered.cursor.reset token.location = _
      rw [back, consumed, Cursor.advance_advance]
    · intro _ other vocabulary interner symbols
      change lexer.next other vocabulary interner (buffered.cursor.reset token.location) = _
      rw [back]
      exact (same other vocabulary interner symbols.symm).symm
    · intro _ _ absurd
      cases absurd

omit [Scalar α] [Numeral α] in
theorem buffer_rewind (state : BufferedState α) : state.rewind.buffer = none := by
  unfold BufferedState.rewind
  split
  next none => exact none
  · rfl

/-- A reading ends as the reading of the direct source does. With a token, nothing is looked at
any more. -/
def Reads (lexer : Lexer) (text : List Char) (direct : ParseState) (position : Position)
    (result : EStateM.Result SyntaxError (BufferedState α) (Token α)) : Prop :=
  (∃ error buffered, direct.ahead (α := α) lexer position = .error error ∧
    result = .error error buffered ∧ Coherent lexer text buffered direct) ∨
  ∃ r, direct.ahead lexer position = .ok r ∧ result = .ok r.token ⟨direct.consume r, none⟩

theorem read (h : Coherent lexer text buffered direct) (empty : buffered.buffer = none)
    (position : Position) :
    Reads lexer text direct position (BufferedState.read lexer.next position buffered) := by
  have same := h.empty empty position buffered.operators.keys buffered.interner
    (by rw [h.operators])
  unfold BufferedState.read
  rw [same, h.operators, h.interner]
  cases read : lexer.next (α := α) position direct.operators.keys direct.interner
    direct.cursor with
  | error error => exact .inl ⟨error, buffered, read, rfl, h⟩
  | ok r =>
      refine .inr ⟨r, read, ?_⟩
      dsimp only
      rw [ParseState.consume, empty]

/-- The buffered source consumes what the direct source consumes. -/
theorem next (h : Coherent lexer text buffered direct) (position : Position) :
    Reads lexer text direct position (BufferedState.next lexer.next position buffered) := by
  unfold BufferedState.next
  cases looked : buffered.buffer with
  | none => exact h.read looked position
  | some entry =>
      obtain ⟨found, token⟩ := entry
      dsimp only
      -- the buffered token is the one asked for, or is dropped and read again
      split
      next same =>
        have read := h.full found token looked
        rw [same] at read
        refine .inr ⟨_, read, ?_⟩
        rw [ParseState.consume, ← h.operators, ← h.interner]
      · exact h.rewind.read (buffer_rewind buffered) position

theorem forward (h : Coherent lexer text buffered direct) {position : Position}
    {r : Lexer.Reading α} (read : direct.ahead lexer position = .ok r) :
    ∃ n, r.cursor = (Cursor.ofList text).advance n := by
  obtain ⟨m, n, _, forward, _⟩ := (Lexer.lexes_of_next read).place
  obtain ⟨behind, consumed⟩ := h.consumed
  refine ⟨behind + (m + n), ?_⟩
  rw [forward, consumed, Cursor.advance_advance, Cursor.advance_advance]

/-- A token that was just looked at would be read again. -/
theorem look (h : Coherent lexer text buffered direct) {position : Position}
    {r : Lexer.Reading α} (read : direct.ahead lexer position = .ok r) :
    Coherent lexer text ⟨direct.consume r, some (position, r.token)⟩
      { direct with interner := r.interner } := by
  refine ⟨rfl, rfl, h.forward read, h.consumed, ?_, ?_⟩
  · intro absurd
    cases absurd
  · intro _ _ looked
    cases looked
    exact ParseState.ahead_again read

omit [Scalar α] [Numeral α] in
theorem declare_eq (buffered : BufferedState α) (name : String) (fixity : Fixity) (power : Power) :
    BufferedState.declare name fixity power buffered =
      .ok () ⟨buffered.rewind.toParseState.declare name fixity power, none⟩ := by
  unfold BufferedState.declare BufferedState.rewind
  cases looked : buffered.buffer with
  | none => rfl
  | some entry => rfl

theorem declare (h : Coherent lexer text buffered direct) {name : String}
    (identifier : isIdentifier name.toList) (fixity : Fixity) (power : Power) :
    ∃ buffered', BufferedState.declare name fixity power buffered = .ok () buffered' ∧
      Coherent lexer text buffered' (direct.declare name fixity power) := by
  have back := h.rewind
  have none := buffer_rewind buffered
  refine ⟨_, declare_eq buffered name fixity power, ?_⟩
  have operators := back.operators
  have interner := back.interner
  generalize buffered.rewind = state at back none operators interner ⊢
  have symbols := @OperatorTable.symbols_insert direct.operators name identifier
    (declaredOperator fixity (direct.interner.intern name).1 power)
  refine ⟨?_, ?_, back.place, back.consumed, ?_, ?_⟩
  · change (ParseState.declare _ _ _ _).operators = (ParseState.declare _ _ _ _).operators
    unfold ParseState.declare
    rw [operators, interner]
  · change (state.interner.intern name).2 = (direct.interner.intern name).2
    rw [interner]
  · intro _ position vocabulary interner same
    exact back.empty none position vocabulary interner (same.trans symbols)
  · intro _ _ absurd
    cases absurd

end BufferedState.Coherent

end Buffer

namespace TokenSource

variable [Scalar α] [Numeral α]

/-- The parser cannot tell the buffered source from the direct one. -/
theorem buffered_simulates (lexer : Lexer) (text : List Char) :
    (buffered lexer.next).Simulates (direct (α := α) lexer) (BufferedState.Coherent lexer text) where
  operators h := h.operators
  interner h := h.interner
  next position := by
    intro state direct coherent
    change Agree _ (BufferedState.next lexer.next position state) _
    rcases coherent.next position with ⟨error, after, ahead, same, later⟩ | ⟨r, ahead, same⟩
    · rw [same, direct_next_error ahead]
      exact ⟨rfl, later⟩
    · rw [same, direct_next_ok.mpr ⟨r, ahead, rfl, rfl⟩]
      exact ⟨rfl, .clean (coherent.forward ahead)⟩
  peek position := by
    intro state direct coherent
    change Agree _ (BufferedState.peek lexer.next position state) _
    unfold BufferedState.peek
    rcases coherent.next position with ⟨error, after, ahead, same, later⟩ | ⟨r, ahead, same⟩
    · rw [same, direct_peek_error ahead]
      exact ⟨rfl, later⟩
    · rw [same, direct_peek_ok.mpr ⟨r, ahead, rfl, rfl⟩]
      exact ⟨rfl, coherent.look ahead⟩
  named {state _ direct position _} coherent read := by
    change BufferedState.next lexer.next position state = _ at read
    rcases coherent.next position with ⟨_, _, _, same, _⟩ | ⟨r, ahead, same⟩
    · rw [same] at read
      cases read
    · rw [same] at read
      cases read
      exact ParseState.named_of_ahead ahead
  declare fixity power identifier := by
    intro state direct coherent
    obtain ⟨after, same, later⟩ := coherent.declare identifier fixity power
    change Agree _ (BufferedState.declare _ fixity power state) _
    rw [same]
    exact ⟨rfl, later⟩

end TokenSource

end IntervalCalc
