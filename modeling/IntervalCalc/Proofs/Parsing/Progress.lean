import IntervalCalc.Proofs.Parsing.Rounds
import IntervalCalc.Scalar.Float

/-!
Where a parse stands on its way. Every state that it passes through is written down. From none of
them a token is read that lies before the end of the token consumed last, no token is empty, and an
expression takes a token. Together with the bounds that are never met, this is why a parse ends.
-/

namespace IntervalCalc

variable {α β σ τ : Type}

/-- A step that writes down the state it leaves. -/
def tracing (step : ParseM σ β) : ParseM (σ × List σ) β :=
  fun start =>
    match step start.1 with
    | .error error later => .error error (later, start.2 ++ [later])
    | .ok value later => .ok value (later, start.2 ++ [later])

/-- A source that writes down the states it leaves. -/
def TokenSource.traced (S : TokenSource α σ) : TokenSource α (σ × List σ) where
  view state := S.view state.1
  next position := tracing (S.next position)
  peek position := tracing (S.peek position)
  declare name fixity power := tracing (S.declare name fixity power)

/-- States that were all related to some state. -/
def Traced (R : σ → τ → Prop) (state : σ × List σ) (other : τ) : Prop :=
  R state.1 other ∧ ∀ visited ∈ state.2, ∃ seen, R visited seen

theorem Alike.tracing {R : σ → τ → Prop} {x : ParseM σ β} {y : ParseM τ β} (h : Alike R x y) :
    Alike (Traced R) (tracing x) y := by
  rintro ⟨state, states⟩ other ⟨related, visited⟩
  have same := h state other related
  have later {s : σ} {t : τ} (related : R s t) : Traced R (s, states ++ [s]) t := by
    refine ⟨related, fun found member => ?_⟩
    rcases List.mem_append.mp member with earlier | last
    · exact visited found earlier
    · obtain rfl := List.mem_singleton.mp last
      exact ⟨t, related⟩
  unfold IntervalCalc.tracing
  cases left : x state with
  | ok value s =>
      cases right : y other with
      | ok value' t => rw [left, right] at same; exact ⟨same.1, later same.2⟩
      | error error t => rw [left, right] at same; exact same.elim
  | error error s =>
      cases right : y other with
      | ok value t => rw [left, right] at same; exact same.elim
      | error error' t => rw [left, right] at same; exact ⟨same.1, later same.2⟩

theorem TokenSource.Simulates.traced {S : TokenSource α σ} {T : TokenSource α τ}
    {R : σ → τ → Prop} (h : S.Simulates T R) : S.traced.Simulates T (Traced R) where
  operators related := h.operators related.1
  interner related := h.interner related.1
  next position := (h.next position).tracing
  peek position := (h.peek position).tracing
  named {s s' t position token} related read := by
    change IntervalCalc.tracing (S.next position) s = _ at read
    unfold IntervalCalc.tracing at read
    split at read
    · cases read
    next found => cases read; exact h.named related.1 found
  declare fixity power identifier := (h.declare fixity power identifier).tracing

/-- The place where a token that was consumed ends. -/
def Event.end? : Event α → Option Location
  | consumed _ _ _ reading => some reading.cursor.location
  | declared _ _ _ => none

/-- The place where the token consumed last ends. -/
def Log.reached (log : Log α) : Location :=
  (log.filterMap Event.end?).getLastD .start

theorem Log.reached_append (log : Log α) (event : Event α) :
    Log.reached (log ++ [event]) = event.end?.getD log.reached := by
  unfold reached
  rw [List.filterMap_append]
  cases found : event.end? with
  | none => simp [found]
  | some place => simp [found]

theorem BufferedState.rewind_of_none {state : BufferedState α} (empty : state.buffer = none) :
    state.rewind = state := by
  unfold rewind
  rw [empty]

section Standing

variable [Scalar α] [Numeral α] {lexer : Lexer} {text : List Char}

/-- A reading that fails has dropped the token that was looked at. -/
theorem BufferedState.next_error {position : Position} {state after : BufferedState α}
    {error : SyntaxError}
    (failed : BufferedState.next lexer.next position state = .error error after) :
    after = state.rewind := by
  have unread {state after : BufferedState α}
      (failed : BufferedState.read lexer.next position state = .error error after) :
      after = state := by
    unfold BufferedState.read at failed
    split at failed
    · cases failed
      rfl
    · cases failed
  unfold BufferedState.next at failed
  split at failed
  next empty =>
    rw [BufferedState.rewind_of_none empty]
    exact unread failed
  · split at failed
    · cases failed
    · exact unread failed

/-- A parse that looks ahead stands at the end of the token consumed last or behind it. -/
structure Standing (lexer : Lexer) (text : List Char) (state : BufferedState α × Log α)
    (direct : ParseState) : Prop where
  coherent : state.1.Coherent lexer text direct
  ahead : ∃ n, state.1.rewind.cursor = direct.cursor.advance n
  reached : state.2.reached = direct.cursor.location

namespace Standing

variable {state : BufferedState α × Log α} {direct : ParseState} {position : Position}

theorem start (grammar : Grammar) (interner : Interner) (source : String) :
    Standing (α := α) grammar.lexer source.toList (⟨grammar.start interner source, none⟩, [])
      (grammar.start interner source) :=
  ⟨grammar.coherent_start interner source, ⟨0, by rw [Cursor.advance]; rfl⟩, rfl⟩

theorem fails (h : Standing lexer text state direct) {error : SyntaxError}
    {after : BufferedState α} (coherent : after.Coherent lexer text direct)
    (failed : BufferedState.next lexer.next position state.1 = .error error after) :
    Standing lexer text (after, state.2) direct := by
  obtain rfl := BufferedState.next_error failed
  refine ⟨coherent, ?_, h.reached⟩
  rw [BufferedState.rewind_of_none (BufferedState.Coherent.buffer_rewind state.1)]
  exact h.ahead

theorem consume (h : Standing lexer text state direct) {r : Lexer.Reading α}
    (read : direct.ahead lexer position = .ok r) :
    Standing lexer text (⟨direct.consume r, none⟩,
      state.2 ++ [.consumed position direct.operators direct.interner r]) (direct.consume r) := by
  refine ⟨.clean (h.coherent.forward read), ⟨0, by rw [Cursor.advance]; rfl⟩, ?_⟩
  rw [Log.reached_append]
  rfl

theorem look (h : Standing lexer text state direct) {r : Lexer.Reading α}
    (read : direct.ahead lexer position = .ok r) :
    Standing lexer text (⟨direct.consume r, some (position, r.token)⟩, state.2)
      { direct with interner := r.interner } := by
  have coherent := h.coherent.look read
  obtain ⟨n, back, _⟩ := coherent.place_rewind rfl
  exact ⟨coherent, ⟨n, back⟩, h.reached⟩

theorem declare (h : Standing lexer text state direct) {name : String}
    (identifier : isIdentifier name.toList) (fixity : Fixity) (power : Power) :
    ∃ buffered', BufferedState.declare name fixity power state.1 = .ok () buffered' ∧
      Standing lexer text (buffered', state.2 ++ [.declared name fixity power])
        (direct.declare name fixity power) := by
  obtain ⟨buffered', declared, coherent⟩ := h.coherent.declare identifier fixity power
  refine ⟨buffered', declared, coherent, ?_, ?_⟩
  · rw [BufferedState.Coherent.declare_eq] at declared
    cases declared
    exact h.ahead
  · rw [Log.reached_append]
    exact h.reached

end Standing

namespace TokenSource

theorem buffered_logged_standing (lexer : Lexer) (text : List Char) :
    (buffered lexer.next).logged.Simulates (direct (α := α) lexer) (Standing lexer text) where
  operators standing := standing.coherent.operators
  interner standing := standing.coherent.interner
  next position := by
    rintro ⟨state, log⟩ direct standing
    change Agree _ (noting (BufferedState.next lexer.next position) _ (state, log)) _
    unfold noting
    rcases standing.coherent.next position with
      ⟨error, after, ahead, same, later⟩ | ⟨r, ahead, same⟩
    · rw [direct_next_error ahead, same]
      exact ⟨rfl, standing.fails later same⟩
    · rw [direct_next_ok.mpr ⟨r, ahead, rfl, rfl⟩, same]
      have consumed := standing.consume ahead
      rw [← standing.coherent.operators, ← standing.coherent.interner] at consumed
      exact ⟨rfl, consumed⟩
  peek position := by
    rintro ⟨state, log⟩ direct standing
    change Agree _
      (noting (BufferedState.peek lexer.next position) (fun _ _ _ => []) (state, log)) _
    unfold noting BufferedState.peek
    rcases standing.coherent.next position with
      ⟨error, after, ahead, same, later⟩ | ⟨r, ahead, same⟩
    · rw [direct_peek_error ahead, same]
      exact ⟨rfl, standing.fails later same⟩
    · rw [direct_peek_ok.mpr ⟨r, ahead, rfl, rfl⟩, same]
      have looked := standing.look ahead
      rw [← List.append_nil log] at looked
      exact ⟨rfl, looked⟩
  named {state _ direct position _} standing read := by
    rw [logged_next, noting_ok] at read
    exact (buffered_simulates lexer text).named standing.coherent read.1
  declare {name} fixity power identifier := by
    rintro ⟨state, log⟩ direct standing
    obtain ⟨after, same, later⟩ := standing.declare identifier fixity power
    change Agree _ (noting (BufferedState.declare name fixity power)
      (fun _ _ _ => [.declared name fixity power]) (state, log)) _
    unfold noting
    rw [same]
    exact ⟨rfl, later⟩

end TokenSource

namespace Standing

variable {state : BufferedState α × Log α} {direct : ParseState}

/-- Nothing is read before the end of the token consumed last. -/
theorem reached_le (h : Standing lexer text state direct) :
    state.2.reached.offset ≤ state.1.rewind.cursor.location.offset := by
  obtain ⟨n, ahead⟩ := h.ahead
  rw [h.reached, ahead]
  exact Cursor.offset_advance_le direct.cursor n

/-- A token takes at least one character, if no operator is empty. -/
theorem takes (h : Standing lexer text state direct) (clear : "" ∉ direct.operators.keys)
    {position : Position} {token : Token α} {after : BufferedState α}
    (read : BufferedState.next lexer.next position state.1 = .ok token after)
    (word : token.kind ≠ .endOfInput) :
    token.location.offset < after.cursor.location.offset := by
  rcases h.coherent.next position with ⟨_, _, _, same, _⟩ | ⟨r, ahead, same⟩
  · rw [same] at read
    cases read
  · rw [same] at read
    cases read
    have lexes := Lexer.lexes_of_next ahead
    exact lexes.takes word (lexes.solid clear)

end Standing

/-- What is noted stays noted. -/
theorem TokenSource.direct_logged_extends (lexer : Lexer) (front : Log α) :
    (direct (α := α) lexer).logged.Simulates (direct lexer) fun s t => s.1 = t ∧ front <+: s.2 :=
  direct_logged_simulates (fun kept _ => kept.trans (List.prefix_append _ _)) (fun kept _ => kept)
    fun kept _ => kept.trans (List.prefix_append _ _)

/-- An expression takes a token. -/
theorem Parser.expression_words {steps : Nat} {power : Power} {s s' : ParseState × Log α}
    {result : Expr α}
    (h : expression (TokenSource.direct lexer).logged steps power s = .ok result s') :
    ∃ events, s'.2 = s.2 ++ events ∧ Log.words events ≠ [] := by
  cases steps with
  | zero =>
      obtain ⟨token, middle, _, h⟩ := Run.bind_eq_ok h
      exact absurd h unexpected_ne_ok
  | succ steps =>
      obtain ⟨token, middle, read, h⟩ := Run.bind_eq_ok h
      obtain ⟨left, between, formed, extended⟩ := Run.bind_eq_ok h
      obtain ⟨r, _, rfl, rfl⟩ := TokenSource.direct_logged_next_ok.mp read
      have word : r.token.kind ≠ .endOfInput := by
        intro ends
        rw [prefixForm_end ends] at formed
        exact absurd formed unexpected_ne_ok
      have kept := TokenSource.direct_logged_extends (α := α) lexer
        (s.2 ++ [.consumed .operand s.1.operators s.1.interner r])
      have both := kept.expression_and_extend steps
      have first := (kept.prefixForm both.1 r.token).keeps List.prefix_rfl formed
      obtain ⟨more, last⟩ := (both.2 power left).keeps first extended
      refine ⟨[.consumed .operand s.1.operators s.1.interner r] ++ more, ?_, ?_⟩
      · rw [← last, List.append_assoc]
      · unfold Log.words
        rw [List.filterMap_append, List.filterMap_cons_some (Event.word?_of_ne_end word)]
        exact List.cons_ne_nil _ _

/-- An expression takes a token, whatever was looked at. -/
theorem Standing.expression_words {state after : BufferedState α × Log α} {direct : ParseState}
    (h : Standing lexer text state direct) {steps : Nat} {power : Power} {result : Expr α}
    (ran : Parser.expression (TokenSource.buffered lexer.next).logged steps power state =
      .ok result after) :
    ∃ events, after.2 = state.2 ++ events ∧ Log.words events ≠ [] := by
  have agree := ((TokenSource.buffered_logged_simulates lexer text).expression_and_extend steps).1
    power state (direct, state.2) ⟨h.coherent, rfl⟩
  rw [ran] at agree
  cases found : Parser.expression (TokenSource.direct lexer).logged steps power
      (direct, state.2) with
  | error error other => rw [found] at agree; exact agree.elim
  | ok value other =>
      rw [found] at agree
      obtain ⟨_, _, same⟩ := agree
      rw [same]
      exact Parser.expression_words found

end Standing

namespace Grammar

variable [Scalar α] [Numeral α] (grammar : Grammar) (interner : Interner) (source : String)

def parseTraced : EStateM.Result SyntaxError
    ((BufferedState α × Log α) × List (BufferedState α × Log α)) (Expr α) :=
  Parser.program (TokenSource.buffered grammar.lexer.next).logged.traced
    (Parser.stepsFor source.toList) ((⟨grammar.start interner source, none⟩, []), [])

/-- The states that a parse passes through, each with what was consumed and declared before. -/
def states (α : Type) [Scalar α] [Numeral α] (grammar : Grammar) (interner : Interner)
    (source : String) : List (BufferedState α × Log α) :=
  (⟨grammar.start interner source, none⟩, []) ::
    (stateAfter (grammar.parseTraced interner source)).2

theorem parseTraced_agree : Agree (Traced (Standing grammar.lexer source.toList))
    (grammar.parseTraced (α := α) interner source) (grammar.parseDirect interner source) :=
  (TokenSource.buffered_logged_standing grammar.lexer source.toList).traced.program _ _ _
    ⟨.start grammar interner source, fun _ absurd => (List.not_mem_nil absurd).elim⟩

/-- The states are those of the parse itself. -/
theorem parse_eq_traced : grammar.parse interner source =
    (TokenSource.buffered (α := α) grammar.lexer.next).logged.traced.parsed grammar.lexer
      (grammar.parseTraced interner source) := by
  have simulates :=
    (TokenSource.buffered_logged_standing (α := α) grammar.lexer source.toList).traced
  rw [parse_eq_direct]
  exact (simulates.parsed (grammar.parseTraced_agree interner source) grammar.lexer).symm

/-- What relates the first state, and is kept, relates all states of a parse. -/
theorem states_related {R : BufferedState α × Log α → ParseState → Prop}
    (kept : (TokenSource.buffered grammar.lexer.next).logged.Simulates (.direct grammar.lexer) R)
    (start : R (⟨grammar.start interner source, none⟩, []) (grammar.start interner source)) :
    ∀ state ∈ grammar.states α interner source, ∃ direct, R state direct := by
  intro state member
  rcases List.mem_cons.mp member with rfl | member
  · exact ⟨_, start⟩
  · have agree := kept.traced.program (Parser.stepsFor source.toList)
      ((⟨grammar.start interner source, none⟩, []), []) (grammar.start interner source)
      ⟨start, fun _ absurd => (List.not_mem_nil absurd).elim⟩
    exact agree.stateAfter.2 state member

theorem states_standing : ∀ state ∈ grammar.states α interner source,
    ∃ direct, Standing grammar.lexer source.toList state direct :=
  grammar.states_related interner source (TokenSource.buffered_logged_standing _ _)
    (.start grammar interner source)

/-- What goes on from a state of a parse: a token has characters, an expression has tokens, and
neither begins before the end of the token consumed last. -/
structure GoesOn (lexer : Lexer) (state : BufferedState α × Log α) : Prop where
  token : ∀ position token after, BufferedState.next lexer.next position state.1 = .ok token after →
    token.kind ≠ .endOfInput → token.location.offset < after.cursor.location.offset
  expression : ∀ steps power result after,
    Parser.expression (TokenSource.buffered lexer.next).logged steps power state =
        .ok result after →
      ∃ events, after.2 = state.2 ++ events ∧ Log.words events ≠ []
  behind : state.2.reached.offset ≤ state.1.rewind.cursor.location.offset

/-- Reading all tokens of a text and parsing it end, whatever the recognizers and the operators are,
if no operator is empty, because no loop comes to more rounds than the text has characters, and one.
No token but the end is empty, no expression is without tokens, and no text is read twice. -/
theorem parse_ends (clear : "" ∉ grammar.operators.keys) {rounds : Nat}
    (enough : source.toList.length < rounds) (beyond : Beyond α) :
    let reader := beyond.reader grammar.lexer rounds
    (∀ position,
      Lexer.tokensOr (reader position grammar.operators.keys) beyond.tokens rounds interner
          (.ofList source.toList) =
        grammar.lexer.tokens position grammar.operators.keys interner source.toList) ∧
    (∀ position vocabulary known cursor (r : Lexer.Reading α), "" ∉ vocabulary →
      grammar.lexer.next position vocabulary known cursor = .ok r → r.token.kind ≠ .endOfInput →
        r.token.location.offset < r.cursor.location.offset) ∧
    grammar.parseOr reader beyond.parse rounds interner source = grammar.parse interner source ∧
    grammar.parse interner source =
      (TokenSource.buffered grammar.lexer.next).logged.traced.parsed grammar.lexer
        (grammar.parseTraced (α := α) interner source) ∧
    ∀ state ∈ grammar.states α interner source, GoesOn grammar.lexer state := by
  refine ⟨fun position => ?_, fun position vocabulary known cursor r clear read word => ?_,
    parseOr_eq clear interner enough, grammar.parse_eq_traced interner source,
    fun state member => ?_⟩
  · have same known (cursor : Cursor) (short : cursor.rest.length ≤ source.toList.length) :
        beyond.reader grammar.lexer rounds position grammar.operators.keys known cursor =
          grammar.lexer.next position grammar.operators.keys known cursor :=
      Lexer.nextOr_eq_next (Nat.lt_of_le_of_lt short enough)
    exact Lexer.tokensOr_eq_tokensOr clear same (Nat.le_refl _) enough (Nat.lt_succ_self _)
  · have lexes := Lexer.lexes_of_next read
    exact lexes.takes word (lexes.solid clear)
  · have kept := (TokenSource.buffered_logged_standing (α := α) grammar.lexer source.toList).and
      (TokenSource.direct_clear grammar.lexer)
    obtain ⟨direct, standing, clear⟩ := grammar.states_related interner source kept
      ⟨.start grammar interner source, clear⟩ state member
    exact ⟨fun _ _ _ read word => standing.takes clear read word,
      fun _ _ _ _ ran => standing.expression_words ran, standing.reached_le⟩

/-- A call that is not closed, among the states of which is one that has looked at a comma. -/
theorem parse_ends_open_call :
    let grammar : Grammar := .standard
    let error : SyntaxError := ⟨.unexpectedEnd, .start⟩
    let beyond : Beyond Float := ⟨.error error, fun _ _ => .error error,
      fun _ _ => throw error, fun _ => throw error, fun _ _ => throw error⟩
    "" ∉ grammar.operators.keys ∧ "f(x,".toList.length < 5 ∧
      grammar.parseOr (beyond.reader grammar.lexer 5) beyond.parse 5 .empty "f(x," =
        grammar.parse .empty "f(x," ∧
      (grammar.parse (α := Float) .empty "f(x,").outcome.isOk = false ∧
      (grammar.states Float .empty "f(x,").length = 10 ∧
      ∀ state ∈ grammar.states Float .empty "f(x,", GoesOn grammar.lexer state := by
  intro grammar error beyond
  have clear : "" ∉ grammar.operators.keys := by decide
  have enough : "f(x,".toList.length < 5 := by decide
  obtain ⟨_, _, ends, _, along⟩ := grammar.parse_ends .empty "f(x," clear enough beyond
  exact ⟨clear, enough, ends, by decide +kernel, by decide +kernel, along⟩

end Grammar

end IntervalCalc
