import IntervalCalc.Proofs.Parsing.Lookahead

/-!
What a parse does to its source, written down step by step. The history of every parse is one
reading after another: each token begins where the one before it ends, read in the position asked
for and with the operators declared by then.
-/

namespace IntervalCalc

variable {α β σ τ : Type}

/-- A step of a parse that changes what is ahead. A token is noted with the position that it was
asked for in, and with the operators and names of the moment. -/
inductive Event (α : Type) where
  | consumed (position : Position) (operators : OperatorTable) (interner : Interner)
    (reading : Lexer.Reading α)
  | declared (name : String) (fixity : Fixity) (power : Power)

/-- The events of one parse, the latest last. -/
abbrev Log (α : Type) := List (Event α)

/-- What an event consumed, unless it was the end of the text. -/
def Event.word? : Event α → Option (TokenKind α)
  | consumed _ _ _ reading =>
    match reading.token.kind with
    | .endOfInput => none
    | kind => some kind
  | declared _ _ _ => none

/-- The tokens that were consumed, in their order and without the end of the text. -/
def Log.words (log : Log α) : List (TokenKind α) :=
  log.filterMap Event.word?

section Words

variable {position : Position} {operators : OperatorTable} {interner : Interner}
variable {r : Lexer.Reading α}

theorem Event.word?_of_end (ends : r.token.kind = .endOfInput) :
    word? (.consumed position operators interner r) = none := by
  unfold word?
  dsimp only
  rw [ends]

theorem Event.word?_of_ne_end (more : r.token.kind ≠ .endOfInput) :
    word? (.consumed position operators interner r) = some r.token.kind := by
  unfold word?
  dsimp only
  split
  next ends => exact absurd ends more
  · rfl

theorem Log.filterMap_append (f : Event α → Option β) (log : Log α) (event : Event α) :
    List.filterMap f (log ++ [event]) = log.filterMap f ++ (f event).toList := by
  rw [List.filterMap_append]
  cases h : f event with
  | none => simp [h]
  | some word => simp [h]

theorem Log.words_append (log : Log α) (event : Event α) :
    Log.words (log ++ [event]) = log.words ++ event.word?.toList :=
  log.filterMap_append Event.word? event

end Words

def Log.DeclaresAbove (power : Power) (log : Log α) : Prop :=
  ∀ name fixity declared, .declared name fixity declared ∈ log → power < declared

theorem Log.DeclaresAbove.of_prefix {power : Power} {log more : Log α}
    (h : more.DeclaresAbove power) (begins : log <+: more) : log.DeclaresAbove power :=
  fun name fixity declared member => h name fixity declared (begins.subset member)

theorem Log.DeclaresAbove.of_append {power : Power} {log : Log α} {event : Event α}
    (h : Log.DeclaresAbove power (log ++ [event])) : log.DeclaresAbove power :=
  h.of_prefix (List.prefix_append log [event])

def Event.power? : Event α → Option Power
  | consumed _ _ _ _ => none
  | declared _ _ power => some power

instance (power : Power) (log : Log α) : Decidable (log.DeclaresAbove power) :=
  decidable_of_iff (∀ event ∈ log, ∀ declared ∈ event.power?, power < declared) <| by
    constructor
    · intro above name fixity declared member
      exact above _ member declared rfl
    · intro above event member declared found
      cases event with
      | consumed position operators interner reading => cases found
      | declared name fixity power => cases found; exact above name fixity declared member

/-- No declaration was completed. -/
def Log.DeclaresNothing (log : Log α) : Prop :=
  ∀ event ∈ log, event.power? = none

instance (log : Log α) : Decidable log.DeclaresNothing :=
  inferInstanceAs (Decidable (∀ event ∈ log, event.power? = none))

theorem Log.DeclaresNothing.of_prefix {log more : Log α} (h : more.DeclaresNothing)
    (begins : log <+: more) : log.DeclaresNothing :=
  fun event member => h event (begins.subset member)

/-- A word can be told from an operator, whatever numbers are. -/
instance (word : Option (TokenKind α)) (name : String) :
    Decidable (word = some (.operator name)) :=
  match word with
  | some (.operator found) => decidable_of_iff (found = name) (by simp)
  | some (.literal _) => isFalse (by simp)
  | some .endOfInput => isFalse (by simp)
  | none => isFalse (by simp)

/-- A step, with notes about what it did if it did something. -/
def noting (step : ParseM σ β) (notes : σ → β → σ → Log α) : ParseM (σ × Log α) β :=
  fun start =>
    match step start.1 with
    | .error error later => .error error (later, start.2)
    | .ok value later => .ok value (later, start.2 ++ notes start.1 value later)

namespace TokenSource

/-- The note about a token. -/
def consumption (S : TokenSource α σ) (position : Position) (state : σ) (token : Token α)
    (later : σ) : Log α :=
  [.consumed position (S.view state).operators (S.view state).interner
    ⟨token, (S.view later).cursor, (S.view later).interner⟩]

/-- A source that notes what it is used for. -/
def logged (S : TokenSource α σ) : TokenSource α (σ × Log α) where
  view state := S.view state.1
  next position := noting (S.next position) (S.consumption position)
  peek position := noting (S.peek position) fun _ _ _ => []
  declare name fixity power := noting (S.declare name fixity power) fun _ _ _ =>
    [.declared name fixity power]

variable (S : TokenSource α σ) (position : Position) (name : String) (fixity : Fixity)
variable (power : Power)

theorem logged_next : S.logged.next position = noting (S.next position) (S.consumption position) :=
  rfl

theorem logged_peek : S.logged.peek position = noting (S.peek position) fun _ _ _ => [] := rfl

theorem logged_declare : S.logged.declare name fixity power =
    noting (S.declare name fixity power) fun _ _ _ => [.declared name fixity power] := rfl

end TokenSource

/-- The events that lead from a grammar and a cursor to later ones. A token is read from the
cursor, and a declaration is in force from then on. -/
inductive History (lexer : Lexer) (operators : OperatorTable) (cursor : Cursor) [Scalar α]
    [Numeral α] : Log α → OperatorTable → Cursor → Prop
  | start : History lexer operators cursor [] operators cursor
  | consumed {log : Log α} {state : ParseState} {position : Position} {r : Lexer.Reading α} :
      History lexer operators cursor log state.operators state.cursor →
      state.ahead lexer position = .ok r →
      History lexer operators cursor
        (log ++ [.consumed position state.operators state.interner r]) state.operators r.cursor
  | declared {log : Log α} {state : ParseState} {name : String} {fixity : Fixity}
      {power : Power} :
      History lexer operators cursor log state.operators state.cursor →
      History lexer operators cursor (log ++ [.declared name fixity power])
        (state.declare name fixity power).operators state.cursor

section Notes

variable {x : ParseM σ β} {y : ParseM τ β} {R : σ → τ → Prop} {notes : σ → β → σ → Log α}

theorem noting_ok {start after : σ × Log α} {value : β} :
    noting x notes start = .ok value after ↔
      x start.1 = .ok value after.1 ∧ after.2 = start.2 ++ notes start.1 value after.1 := by
  obtain ⟨later, events⟩ := after
  unfold noting
  cases x start.1 with
  | error error middle => simp
  | ok found middle =>
      simp only [EStateM.Result.ok.injEq, Prod.mk.injEq]
      constructor
      · rintro ⟨rfl, rfl, rfl⟩
        exact ⟨⟨rfl, rfl⟩, rfl⟩
      · rintro ⟨⟨rfl, rfl⟩, rfl⟩
        exact ⟨rfl, rfl, rfl⟩

theorem Alike.noting (h : Alike R x y) :
    Alike (fun state other => R state.1 other) (noting x notes) y := by
  intro state other related
  have same := h state.1 other related
  unfold IntervalCalc.noting
  cases left : x state.1 with
  | ok value later =>
      rw [left] at same
      cases right : y other <;> rw [right] at same <;> exact same
  | error error later =>
      rw [left] at same
      cases right : y other <;> rw [right] at same <;> exact same

/-- Steps that agree note the same if their notes about agreeing results are the same. -/
theorem Alike.noting_both {notes' : τ → β → τ → Log α} (h : Alike R x y)
    (same : ∀ s t value s' t', R s t → x s = .ok value s' → y t = .ok value t' →
      notes s value s' = notes' t value t') :
    Alike (fun state other => R state.1 other.1 ∧ state.2 = other.2) (IntervalCalc.noting x notes)
      (IntervalCalc.noting y notes') := by
  intro state other related
  obtain ⟨related, equal⟩ := related
  have agree := h state.1 other.1 related
  unfold IntervalCalc.noting
  cases left : x state.1 with
  | ok value later =>
      cases right : y other.1 with
      | ok value' later' =>
          rw [left, right] at agree
          obtain ⟨rfl, after⟩ := agree
          refine ⟨rfl, after, ?_⟩
          dsimp only
          rw [equal, same state.1 other.1 value later later' related left right]
      | error error later' => rw [left, right] at agree; exact agree.elim
  | error error later =>
      cases right : y other.1 with
      | ok value later' => rw [left, right] at agree; exact agree.elim
      | error error' later' =>
          rw [left, right] at agree
          exact ⟨agree.1, agree.2, equal⟩

end Notes

namespace TokenSource

variable {S : TokenSource α σ} {T : TokenSource α τ} {R : σ → τ → Prop}

theorem Simulates.logged (h : S.Simulates T R) :
    S.logged.Simulates T fun state other => R state.1 other where
  operators related := h.operators related
  interner related := h.interner related
  next position := by
    rw [logged_next]
    exact (h.next position).noting
  peek position := by
    rw [logged_peek]
    exact (h.peek position).noting
  named related read := by
    rw [logged_next, noting_ok] at read
    exact h.named related read.1
  declare fixity power identifier := by
    rw [logged_declare]
    exact (h.declare fixity power identifier).noting

variable [Scalar α] [Numeral α]

theorem buffered_logged_simulates (lexer : Lexer) (text : List Char) :
    (buffered (α := α) lexer.next).logged.Simulates (direct lexer).logged fun state other =>
      BufferedState.Coherent lexer text state.1 other.1 ∧ state.2 = other.2 where
  operators related := related.1.operators
  interner related := related.1.interner
  next position := by
    rw [logged_next, logged_next]
    refine ((buffered_simulates lexer text).next position).noting_both ?_
    intro state other token later later' coherent read read'
    obtain ⟨r, ahead, rfl, rfl⟩ := direct_next_ok.mp read'
    change BufferedState.next lexer.next position state = _ at read
    rcases coherent.next position with ⟨_, _, failed, _⟩ | ⟨r', ahead', same⟩
    · rw [ahead] at failed
      cases failed
    · rw [ahead] at ahead'
      cases ahead'
      rw [same] at read
      cases read
      change [Event.consumed position state.operators state.interner _] = _
      rw [coherent.operators, coherent.interner]
      rfl
  peek position := by
    rw [logged_peek, logged_peek]
    exact ((buffered_simulates lexer text).peek position).noting_both fun _ _ _ _ _ _ _ _ => rfl
  named related read := by
    rw [logged_next, noting_ok] at read
    exact (buffered_simulates lexer text).named related.1 read.1
  declare fixity power identifier := by
    rw [logged_declare, logged_declare]
    exact ((buffered_simulates lexer text).declare fixity power identifier).noting_both
      fun _ _ _ _ _ _ _ _ => rfl

section Logged

variable {lexer : Lexer} {position : Position} {start after : ParseState × Log α} {token : Token α}

theorem direct_logged_next_ok :
    (direct lexer).logged.next position start = .ok token after ↔
      ∃ r : Lexer.Reading α, start.1.ahead lexer position = .ok r ∧ token = r.token ∧
        after = (start.1.consume r,
          start.2 ++ [.consumed position start.1.operators start.1.interner r]) := by
  obtain ⟨state, log⟩ := after
  rw [logged_next, noting_ok, direct_next_ok]
  constructor
  · rintro ⟨⟨r, ahead, rfl, rfl⟩, notes⟩
    exact ⟨r, ahead, rfl, congrArg _ notes⟩
  · rintro ⟨r, ahead, rfl, same⟩
    cases same
    exact ⟨⟨r, ahead, rfl, rfl⟩, rfl⟩

theorem direct_logged_peek_ok :
    (direct lexer).logged.peek position start = .ok token after ↔
      ∃ r : Lexer.Reading α, start.1.ahead lexer position = .ok r ∧ token = r.token ∧
        after = ({ start.1 with interner := r.interner }, start.2) := by
  obtain ⟨state, log⟩ := after
  rw [logged_peek, noting_ok, direct_peek_ok, List.append_nil]
  constructor
  · rintro ⟨⟨r, ahead, rfl, rfl⟩, rfl⟩
    exact ⟨r, ahead, rfl, rfl⟩
  · rintro ⟨r, ahead, rfl, same⟩
    cases same
    exact ⟨⟨r, ahead, rfl, rfl⟩, rfl⟩

/-- A log changes nothing, and what consuming, looking and declaring preserve with the log kept, all
steps of a parse preserve. -/
theorem direct_logged_simulates {I : ParseState × Log α → Prop}
    (consume : ∀ {s : ParseState} {log : Log α} {position : Position} {r : Lexer.Reading α},
      I (s, log) → s.ahead lexer position = .ok r →
        I (s.consume r, log ++ [.consumed position s.operators s.interner r]))
    (look : ∀ {s : ParseState} {log : Log α} {position : Position} {r : Lexer.Reading α},
      I (s, log) → s.ahead lexer position = .ok r → I ({ s with interner := r.interner }, log))
    (declare : ∀ {s : ParseState} {log : Log α} {name : String} {fixity : Fixity} {power : Power},
      I (s, log) → isIdentifier name.toList →
        I (s.declare name fixity power, log ++ [.declared name fixity power])) :
    (direct (α := α) lexer).logged.Simulates (direct lexer) fun s t => s.1 = t ∧ I s where
  operators same := congrArg _ same.1
  interner same := congrArg _ same.1
  next position := by
    rintro ⟨s, log⟩ _ ⟨rfl, before⟩
    cases read : s.ahead (α := α) lexer position with
    | error error =>
        rw [logged_next, noting, direct_next_error read]
        exact ⟨rfl, rfl, before⟩
    | ok r =>
        rw [direct_logged_next_ok.mpr ⟨r, read, rfl, rfl⟩, direct_next_ok.mpr ⟨r, read, rfl, rfl⟩]
        exact ⟨rfl, rfl, consume before read⟩
  peek position := by
    rintro ⟨s, log⟩ _ ⟨rfl, before⟩
    cases read : s.ahead (α := α) lexer position with
    | error error =>
        rw [logged_peek, noting, direct_peek_error read]
        exact ⟨rfl, rfl, before⟩
    | ok r =>
        rw [direct_logged_peek_ok.mpr ⟨r, read, rfl, rfl⟩, direct_peek_ok.mpr ⟨r, read, rfl, rfl⟩]
        exact ⟨rfl, rfl, look before read⟩
  named _ read := by
    obtain ⟨r, ahead, rfl, _⟩ := direct_logged_next_ok.mp read
    exact ParseState.named_of_ahead ahead
  declare fixity power identifier := by
    rintro ⟨s, log⟩ _ ⟨rfl, before⟩
    exact ⟨rfl, rfl, declare before identifier⟩

end Logged

end TokenSource

/-- What a parse over a source comes to. -/
def TokenSource.parsed (S : TokenSource α σ) (lexer : Lexer) :
    EStateM.Result SyntaxError σ (Expr α) → Grammar.Parsed α
  | .ok result state => ⟨.ok result, ⟨lexer, (S.view state).operators⟩, (S.view state).interner⟩
  | .error error state =>
    ⟨.error error, ⟨lexer, (S.view state).operators⟩, (S.view state).interner⟩

/-- The state that a parse leaves, also after an error. -/
def stateAfter : EStateM.Result SyntaxError σ β → σ
  | .ok _ state => state
  | .error _ state => state

section Agreement

variable {R : σ → τ → Prop} {x : EStateM.Result SyntaxError σ β}
  {y : EStateM.Result SyntaxError τ β}

theorem Agree.stateAfter (h : Agree R x y) : R (stateAfter x) (stateAfter y) := by
  cases x with
  | ok value s =>
      cases y with
      | ok other t => exact h.2
      | error error t => exact h.elim
  | error error s =>
      cases y with
      | ok other t => exact h.elim
      | error other t => exact h.2

theorem Alike.keeps {I : σ × β → Prop} {x : ParseM (σ × β) γ} {y : ParseM σ γ}
    (h : Alike (fun s t => s.1 = t ∧ I s) x y) {s s' : σ × β} {value : γ} (before : I s)
    (ran : x s = .ok value s') : I s' := by
  have agree := h s s.1 ⟨rfl, before⟩
  rw [ran] at agree
  exact agree.stateAfter.2

theorem TokenSource.Simulates.parsed {S : TokenSource α σ} {T : TokenSource α τ}
    {x : EStateM.Result SyntaxError σ (Expr α)} {y : EStateM.Result SyntaxError τ (Expr α)}
    (h : S.Simulates T R) (agree : Agree R x y) (lexer : Lexer) :
    S.parsed lexer x = T.parsed lexer y := by
  cases x with
  | ok value s =>
      cases y with
      | ok other t =>
          obtain ⟨rfl, related⟩ := agree
          rw [TokenSource.parsed, TokenSource.parsed, h.operators related, h.interner related]
      | error error t => exact agree.elim
  | error error s =>
      cases y with
      | ok other t => exact agree.elim
      | error other t =>
          obtain ⟨rfl, related⟩ := agree
          rw [TokenSource.parsed, TokenSource.parsed, h.operators related, h.interner related]

end Agreement

namespace Grammar

variable [Scalar α] [Numeral α]

def start (grammar : Grammar) (interner : Interner) (source : String) : ParseState :=
  ⟨grammar.operators, interner, .ofList source.toList⟩

def parseDirect (grammar : Grammar) (interner : Interner) (source : String) :
    EStateM.Result SyntaxError ParseState (Expr α) :=
  Parser.program (.direct grammar.lexer) (Parser.stepsFor source.toList)
    (grammar.start interner source)

def parseLogged (grammar : Grammar) (interner : Interner) (source : String) :
    EStateM.Result SyntaxError (BufferedState α × Log α) (Expr α) :=
  Parser.program (TokenSource.buffered grammar.lexer.next).logged (Parser.stepsFor source.toList)
    (⟨grammar.start interner source, none⟩, [])

/-- What a parse consumes and declares in a number of steps. -/
def historyWithin (α : Type) [Scalar α] [Numeral α] (grammar : Grammar) (interner : Interner)
    (source : String) (steps : Nat) : Log α :=
  (stateAfter (Parser.program (TokenSource.buffered (α := α) grammar.lexer.next).logged steps
    (⟨grammar.start interner source, none⟩, []))).2

/-- What a parse consumed and declared. -/
def history (α : Type) [Scalar α] [Numeral α] (grammar : Grammar) (interner : Interner)
    (source : String) : Log α :=
  (stateAfter (grammar.parseLogged interner source)).2

variable (grammar : Grammar) (interner : Interner) (source : String)

theorem parseOr_eq_parsed (reader : Reader α) (beyond : Parser.Beyond α (BufferedState α))
    (steps : Nat) : grammar.parseOr reader beyond steps interner source =
      (TokenSource.buffered reader).parsed grammar.lexer (Parser.programOr (.buffered reader) beyond
        steps ⟨grammar.start interner source, none⟩) := by
  unfold parseOr start
  dsimp only
  cases Parser.programOr (TokenSource.buffered reader) beyond steps
    ⟨⟨grammar.operators, interner, .ofList source.toList⟩, none⟩ <;> rfl

theorem parse_eq_parsed : grammar.parse interner source =
    (TokenSource.buffered grammar.lexer.next).parsed (α := α) grammar.lexer
      (Parser.program (.buffered grammar.lexer.next) (Parser.stepsFor source.toList)
        ⟨grammar.start interner source, none⟩) :=
  grammar.parseOr_eq_parsed interner source _ _ _

theorem coherent_start : BufferedState.Coherent (α := α) grammar.lexer source.toList
    ⟨grammar.start interner source, none⟩ (grammar.start interner source) :=
  .clean ⟨0, by rw [Cursor.advance]; rfl⟩

/-- The buffer is invisible. -/
theorem parse_eq_direct : grammar.parse interner source =
    (TokenSource.direct (α := α) grammar.lexer).parsed grammar.lexer
      (grammar.parseDirect interner source) := by
  have simulates := TokenSource.buffered_simulates (α := α) grammar.lexer source.toList
  rw [parse_eq_parsed]
  exact simulates.parsed (simulates.program _ _ _ (grammar.coherent_start interner source)) _

/-- The log is one of the parse itself. -/
theorem parse_eq_logged : grammar.parse interner source =
    (TokenSource.buffered (α := α) grammar.lexer.next).logged.parsed grammar.lexer
      (grammar.parseLogged interner source) := by
  have simulates := (TokenSource.buffered_simulates (α := α) grammar.lexer source.toList).logged
  have agree := simulates.program (Parser.stepsFor source.toList)
    (⟨grammar.start interner source, none⟩, []) _ (grammar.coherent_start interner source)
  rw [parse_eq_direct]
  exact (simulates.parsed agree grammar.lexer).symm

def parseDirectLogged : EStateM.Result SyntaxError (ParseState × Log α) (Expr α) :=
  Parser.program (TokenSource.direct grammar.lexer).logged (Parser.stepsFor source.toList)
    (grammar.start interner source, [])

theorem historyWithin_eq_direct (steps : Nat) : grammar.historyWithin α interner source steps =
    (stateAfter (Parser.program (TokenSource.direct (α := α) grammar.lexer).logged steps
      (grammar.start interner source, []))).2 := by
  have agree := (TokenSource.buffered_logged_simulates (α := α) grammar.lexer
    source.toList).program steps (⟨grammar.start interner source, none⟩, [])
    (grammar.start interner source, []) ⟨grammar.coherent_start interner source, rfl⟩
  exact agree.stateAfter.2

theorem history_eq_direct : grammar.history α interner source =
    (stateAfter (grammar.parseDirectLogged (α := α) interner source)).2 :=
  grammar.historyWithin_eq_direct interner source _

/-- Reading one token after the other makes a history. -/
theorem direct_logged_history : (TokenSource.direct (α := α) grammar.lexer).logged.Simulates
    (.direct grammar.lexer) fun s t => s.1 = t ∧ History grammar.lexer grammar.operators
      (.ofList source.toList) s.2 s.1.operators s.1.cursor :=
  TokenSource.direct_logged_simulates (fun history read => history.consumed read)
    (fun history _ => history) (fun history _ => history.declared)

theorem parseDirectLogged_agree : Agree (fun s t => s.1 = t ∧
      History grammar.lexer grammar.operators (.ofList source.toList) s.2 s.1.operators s.1.cursor)
    (grammar.parseDirectLogged (α := α) interner source) (grammar.parseDirect interner source) :=
  (grammar.direct_logged_history source).program _ _ _ ⟨rfl, .start⟩

/-- What is consumed in a number of steps is a history, whether the parse is over then or not. -/
theorem history_within (steps : Nat) : ∃ operators cursor,
    History grammar.lexer grammar.operators (.ofList source.toList)
      (grammar.historyWithin α interner source steps) operators cursor := by
  have agree := (grammar.direct_logged_history (α := α) source).program steps
    (grammar.start interner source, []) (grammar.start interner source) ⟨rfl, .start⟩
  rw [historyWithin_eq_direct]
  exact ⟨_, _, agree.stateAfter.2⟩

/-- The logged parse behind a text that is accepted. -/
theorem parseDirectLogged_ok {result : Expr α}
    (h : (grammar.parse interner source).outcome = .ok result) : ∃ after : ParseState × Log α,
      grammar.parseDirectLogged interner source = .ok result after ∧
        grammar.parse interner source =
          ⟨.ok result, ⟨grammar.lexer, after.1.operators⟩, after.1.interner⟩ ∧
        grammar.history α interner source = after.2 ∧
        History grammar.lexer grammar.operators (.ofList source.toList) after.2 after.1.operators
          after.1.cursor ∧
        after.1.cursor.rest = [] := by
  have agree := grammar.parseDirectLogged_agree (α := α) interner source
  rw [parse_eq_direct] at h ⊢
  rw [history_eq_direct]
  cases direct : grammar.parseDirect (α := α) interner source with
  | error error state => rw [direct] at h; cases h
  | ok found state =>
      rw [direct] at h
      cases h
      cases logged : grammar.parseDirectLogged (α := α) interner source with
      | error error state => rw [direct, logged] at agree; exact agree.elim
      | ok other after =>
          rw [direct, logged] at agree
          obtain ⟨rfl, rfl, history⟩ := agree
          refine ⟨after, rfl, rfl, rfl, history, ?_⟩
          obtain ⟨token, middle, _, read, ends⟩ := Parser.program_ok logged
          obtain ⟨r, ahead, rfl, rfl⟩ := TokenSource.direct_logged_next_ok.mp read
          rcases (Lexer.lexes_of_next ahead).progress with ⟨_, finished, _⟩ | ⟨spelled, _⟩
          · exact finished
          · rw [ends] at spelled
            exact spelled.elim

theorem parse_grammar : (grammar.parse (α := α) interner source).grammar =
    ⟨grammar.lexer, (stateAfter (grammar.parseDirect (α := α) interner source)).operators⟩ := by
  rw [parse_eq_direct]
  cases grammar.parseDirect (α := α) interner source with
  | ok result state => rfl
  | error error state => rfl

theorem parse_interner : (grammar.parse (α := α) interner source).interner =
    (stateAfter (grammar.parseDirect (α := α) interner source)).interner := by
  rw [parse_eq_direct]
  cases grammar.parseDirect (α := α) interner source with
  | ok result state => rfl
  | error error state => rfl

/-- Every token that a parse consumes is the one that the text has next, read in the position
asked for with the operators of the moment, and a parse that succeeds ends with the end of the
text. As far as a parse has come in any number of steps, it is the same, also where it never ends
for an operator of empty name. -/
theorem parse_history :
    grammar.parse interner source = (TokenSource.buffered (α := α) grammar.lexer.next).logged.parsed
        grammar.lexer (grammar.parseLogged interner source) ∧
      (∃ cursor, History grammar.lexer grammar.operators (.ofList source.toList)
        (grammar.history α interner source)
        (grammar.parse (α := α) interner source).grammar.operators cursor) ∧
      (∀ result : Expr α, (grammar.parse interner source).outcome = .ok result →
        ∃ earlier position operators known r, grammar.history α interner source =
            earlier ++ [.consumed position operators known r] ∧
          r.token.kind = .endOfInput ∧ r.cursor.rest = []) ∧
      ∀ steps, ∃ operators cursor, History grammar.lexer grammar.operators (.ofList source.toList)
        (grammar.historyWithin α interner source steps) operators cursor := by
  have agree := grammar.parseDirectLogged_agree (α := α) interner source
  refine ⟨grammar.parse_eq_logged interner source, ?_, ?_, grammar.history_within interner source⟩
  · obtain ⟨same, history⟩ := agree.stateAfter
    rw [history_eq_direct, parse_grammar, ← same]
    exact ⟨_, history⟩
  · intro result succeeds
    rw [parse_eq_direct] at succeeds
    rw [history_eq_direct]
    cases direct : grammar.parseDirect (α := α) interner source with
    | error error state => rw [direct] at succeeds; cases succeeds
    | ok found state =>
        cases logged : grammar.parseDirectLogged (α := α) interner source with
        | error error state => rw [direct, logged] at agree; exact agree.elim
        | ok other after =>
            obtain ⟨token, middle, _, read, ends⟩ := Parser.program_ok logged
            rw [TokenSource.logged_next, noting_ok] at read
            obtain ⟨r, ahead, rfl, same⟩ := TokenSource.direct_next_ok.mp read.1
            refine ⟨middle.2, .operator, middle.1.operators, middle.1.interner, r, ?_, ends, ?_⟩
            · change after.2 = _
              rw [read.2, same]
              rfl
            · rcases (Lexer.lexes_of_next ahead).progress with ⟨_, finished, _⟩ | ⟨spelled, _⟩
              · exact finished
              · rw [ends] at spelled
                exact spelled.elim

end Grammar

end IntervalCalc
