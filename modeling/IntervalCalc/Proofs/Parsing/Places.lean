import IntervalCalc.Proofs.Lexing.Places
import IntervalCalc.Proofs.Parsing.Progress

/-!
The places in a parse. Tokens come from cursors among the characters of the text, however often one
of them is dropped and read again, and a parse fails where a token is or where none can be read. So
each place that it names has the line and the column of its byte offset.
-/

namespace IntervalCalc

variable {α β γ σ : Type}

/-- What a step does in the states of a kind. It leads to another one with a value of a kind, or it
fails at a place of a kind. -/
structure ParseM.Locates (I : σ → Prop) (P : Location → Prop) (Q : β → Prop)
    (step : ParseM σ β) : Prop where
  ok : ∀ {s value s'}, I s → step s = .ok value s' → I s' ∧ Q value
  error : ∀ {s error s'}, I s → step s = .error error s' → P error.location

/-- A step whose value is of no matter. -/
abbrev ParseM.Stays (I : σ → Prop) (P : Location → Prop) (step : ParseM σ β) : Prop :=
  step.Locates I P fun _ => True

namespace ParseM

variable {I : σ → Prop} {P : Location → Prop} {Q : β → Prop} {Q' : γ → Prop}

theorem Locates.pure (value : β) :
    Locates I P (fun _ => True) (Pure.pure value : ParseM σ β) where
  ok stands found := by cases found; exact ⟨stands, trivial⟩
  error _ failed := by cases failed

theorem Locates.throw {error : SyntaxError} (h : P error.location) :
    Locates I P Q (MonadExcept.throw error : ParseM σ β) where
  ok _ found := by cases found
  error _ failed := by cases failed; exact h

theorem Locates.bind {step : ParseM σ β} {next : β → ParseM σ γ} (h : Locates I P Q step)
    (h' : ∀ value, Q value → Locates I P Q' (next value)) : Locates I P Q' (step >>= next) where
  ok stands found := by
    obtain ⟨value, middle, first, second⟩ := Run.bind_eq_ok found
    obtain ⟨between, good⟩ := h.ok stands first
    exact (h' value good).ok between second
  error {s error s'} stands failed := by
    rcases Run.bind_eq_error failed with first | ⟨value, middle, first, second⟩
    · exact h.error stands first
    · obtain ⟨between, good⟩ := h.ok stands first
      exact (h' value good).error between second

theorem Stays.bind {step : ParseM σ β} {next : β → ParseM σ γ} (h : Stays I P step)
    (h' : ∀ value, Locates I P Q' (next value)) : Locates I P Q' (step >>= next) :=
  Locates.bind h fun value _ => h' value

end ParseM

open ParseM (Locates Stays)

/-- A source whose tokens are at places of a kind, and which fails at such a place. -/
structure TokenSource.Locates (S : TokenSource α σ) (I : σ → Prop) (P : Location → Prop) :
    Prop where
  next : ∀ position, (S.next position).Locates I P fun token => P token.location
  peek : ∀ position, (S.peek position).Locates I P fun token => P token.location
  declare : ∀ name fixity power, Stays I P (S.declare name fixity power)

namespace Parser

variable {S : TokenSource α σ} {I : σ → Prop} {P : Location → Prop} (tokens : S.Locates I P)

theorem operator?_stays (name : String) : Stays I P (operator? S name) where
  ok stands found := by cases found; exact ⟨stands, trivial⟩
  error _ failed := by cases failed

include tokens in
theorem skipIf_stays (name : String) : Stays I P (skipIf S name) := by
  refine (tokens.peek .operator).bind fun token _ => ?_
  split
  · exact (tokens.next .operator).bind fun _ _ => .pure _
  · exact .pure _

include tokens in
theorem leftPower_stays : Stays I P (leftPower S) := by
  refine (tokens.peek .operator).bind fun token _ => ?_
  split
  · exact (operator?_stays _).bind fun _ => .pure _
  · exact .pure _

include tokens in
theorem endsProgram_stays (op : BinaryOp) : Stays I P (endsProgram S op) := by
  unfold endsProgram
  split
  · exact (tokens.peek .operand).bind fun _ _ => .pure _
  · exact .pure _

variable [Numeral α]

theorem unexpected_stays {token : Token α} (here : P token.location) :
    Stays I P (unexpected token : ParseM σ β) := by
  unfold unexpected
  split
  · exact .throw here
  · exact .throw here

include tokens in
theorem expect_stays (name : String) : Stays I P (expect S name) := by
  refine (tokens.next .operator).bind fun token here => ?_
  split
  · exact .pure _
  · exact .throw here

theorem parameters_stays {location : Location} (here : P location) (list : List (Expr α)) :
    Stays I P (parameters location list : ParseM σ (List Symbol)) := by
  induction list with
  | nil => exact .pure _
  | cons first rest ih =>
      cases first with
      | symbol symbol => exact ih.bind fun _ => .pure _
      | _ => exact .throw here

theorem declaredName_stays {token : Token α} (here : P token.location) :
    Stays I P (declaredName token : ParseM σ String) := by
  unfold declaredName
  split
  · exact .pure _
  · split
    · exact .pure _
    · exact .throw here
  · exact .throw here

section Expressions

variable {e : Power → ParseM σ (Expr α)} (inner : ∀ power, Stays I P (e power))

include tokens inner

theorem arguments_stays (closing : String) (steps : Nat) :
    Stays I P (arguments S e closing steps) := by
  induction steps with
  | zero => exact (tokens.next .operand).bind fun _ here => unexpected_stays here
  | succ steps ih =>
      refine (inner 0).bind fun first => (skipIf_stays tokens ",").bind fun more => ?_
      split
      · exact ih.bind fun _ => .pure _
      · exact (expect_stays tokens closing).bind fun _ => .pure _

theorem definition_stays {location : Location} (here : P location) :
    Stays I P (definition S e location) := by
  refine (inner 0).bind fun signature => ?_
  split
  · refine (parameters_stays here _).bind fun _ => (expect_stays tokens "is").bind fun _ => ?_
    exact (inner 0).bind fun _ => (expect_stays tokens "end").bind fun _ => .pure _
  · exact .throw here

variable [Scalar α]

theorem declaredPower_stays : Stays I P (declaredPower S e) := by
  refine (tokens.peek .operand).bind fun first here => (inner 1000).bind fun operand => ?_
  split
  · split
    · exact .pure _
    · exact .throw here
  · exact .throw here

theorem declaration_stays (fixity : Fixity) : Stays I P (declaration S e fixity) := by
  refine (tokens.next .operand).bind fun token here => ?_
  refine (declaredName_stays here).bind fun name => ?_
  refine (declaredPower_stays tokens inner).bind fun power => ?_
  exact (tokens.declare name fixity power).bind fun _ => .pure _

theorem applyPrefix_stays {location : Location} (here : P location) (rule : PrefixRule) :
    Stays I P (applyPrefix S e location rule) := by
  cases rule with
  | unary op power => exact (inner power).bind fun _ => .pure _
  | apply head power => exact (inner power).bind fun _ => .pure _
  | group closing =>
      exact (inner 0).bind fun _ => (expect_stays tokens closing).bind fun _ => .pure _
  | branch =>
      refine (inner 0).bind fun _ => (expect_stays tokens "then").bind fun _ => ?_
      refine (inner 0).bind fun _ => (expect_stays tokens "else").bind fun _ => ?_
      exact (inner 0).bind fun _ => (expect_stays tokens "end").bind fun _ => .pure _
  | function => exact definition_stays tokens inner here
  | declare fixity => exact declaration_stays tokens inner fixity

theorem prefixForm_stays {token : Token α} (here : P token.location) :
    Stays I P (prefixForm S e token) := by
  unfold prefixForm
  split
  · exact .pure _
  · exact unexpected_stays here
  · refine (operator?_stays _).bind fun operator => ?_
    split
    · exact unexpected_stays here
    · exact applyPrefix_stays tokens inner here _

omit [Scalar α] in
theorem applyInfix_stays {list : String → ParseM σ (List (Expr α))}
    (listed : ∀ closing, Stays I P (list closing)) {location : Location} (here : P location)
    (power : Power) (left : Expr α) (rule : InfixRule) :
    Stays I P (applyInfix S list e location power left rule) := by
  cases rule with
  | binary op rightAssociative =>
      refine (endsProgram_stays tokens op).bind fun ends => ?_
      split
      · exact .pure _
      · exact (inner _).bind fun _ => .pure _
  | postfixed op => exact .pure _
  | apply head => exact (inner power).bind fun _ => .pure _
  | composite closing bracket =>
      dsimp only [applyInfix]
      split
      · refine (skipIf_stays tokens closing).bind fun empty => ?_
        split
        · exact .pure _
        · exact (listed closing).bind fun _ => .pure _
      · exact .throw here
  | branch =>
      refine (inner 0).bind fun _ => (expect_stays tokens "else").bind fun _ => ?_
      exact (inner power).bind fun _ => .pure _

omit [Scalar α] in
theorem infixForm_stays {list : String → ParseM σ (List (Expr α))}
    (listed : ∀ closing, Stays I P (list closing)) {token : Token α} (here : P token.location)
    (left : Expr α) : Stays I P (infixForm S list e token left) := by
  unfold infixForm
  split
  · refine (operator?_stays _).bind fun found => ?_
    split
    · split
      · exact applyInfix_stays tokens inner listed here _ left _
      · exact unexpected_stays here
    · exact unexpected_stays here
  · exact unexpected_stays here

end Expressions

variable [Scalar α]

include tokens

theorem expression_and_extend_stay (steps : Nat) :
    (∀ power, Stays I P (expression S steps power)) ∧
      ∀ power left, Stays I P (extend S steps power left) := by
  induction steps with
  | zero =>
      constructor
      · intro power
        exact (tokens.next .operand).bind fun _ here => unexpected_stays here
      · intro power left
        refine (leftPower_stays tokens).bind fun found => ?_
        split
        · exact (tokens.next .operator).bind fun _ here => unexpected_stays here
        · exact .pure _
  | succ steps ih =>
      obtain ⟨inner, later⟩ := ih
      constructor
      · intro power
        refine (tokens.next .operand).bind fun token here => ?_
        exact (prefixForm_stays tokens inner here).bind fun left => later power left
      · intro power left
        refine (leftPower_stays tokens).bind fun found => ?_
        split
        · refine (tokens.next .operator).bind fun token here => ?_
          have listed := fun closing => arguments_stays tokens inner closing steps
          exact (infixForm_stays tokens inner listed here left).bind fun left => later power left
        · exact .pure _

theorem program_stays (steps : Nat) : Stays I P (program S steps) := by
  refine ((expression_and_extend_stay tokens steps).1 0).bind fun result => ?_
  refine (tokens.next .operator).bind fun token here => ?_
  split
  · exact .pure _
  · exact unexpected_stays here

end Parser

section Direct

variable [Scalar α] [Numeral α] {lexer : Lexer} {source : String}

/-- A place that a cursor comes to on its way through a text. -/
def Location.Ahead (source : String) (location : Location) : Prop :=
  ∃ n, location = ((Cursor.ofList source.toList).advance n).location

/-- A parse whose cursor has come some way through a text. -/
def ParseState.Along (source : String) (state : ParseState) : Prop :=
  ∃ n, state.cursor = (Cursor.ofList source.toList).advance n

namespace ParseState.Along

variable {state : ParseState} {position : Position}

theorem token {r : Lexer.Reading α} (h : state.Along source)
    (read : state.ahead lexer position = .ok r) :
    r.token.location.Ahead source ∧ (state.consume r).Along source := by
  obtain ⟨k, here⟩ := h
  obtain ⟨m, n, location, forward, _⟩ := (Lexer.lexes_of_next read).place
  rw [here, Cursor.advance_advance] at location forward
  rw [Cursor.advance_advance] at forward
  exact ⟨⟨_, location⟩, ⟨_, forward⟩⟩

theorem fails {error : SyntaxError} (h : state.Along source)
    (failed : state.ahead (α := α) lexer position = .error error) :
    error.location.Ahead source := by
  obtain ⟨k, here⟩ := h
  obtain ⟨n, place⟩ := Lexer.next_error failed
  rw [here, Cursor.advance_advance] at place
  exact ⟨_, place⟩

end ParseState.Along

namespace TokenSource

variable {position : Position} {state after : ParseState} {error : SyntaxError}

theorem direct_next_failed
    (failed : (direct (α := α) lexer).next position state = .error error after) :
    state.ahead (α := α) lexer position = .error error := by
  cases ahead : state.ahead (α := α) lexer position with
  | ok r =>
      rw [direct_next_ok.mpr ⟨r, ahead, rfl, rfl⟩] at failed
      cases failed
  | error found =>
      rw [direct_next_error ahead] at failed
      cases failed
      rfl

theorem direct_peek_failed
    (failed : (direct (α := α) lexer).peek position state = .error error after) :
    state.ahead (α := α) lexer position = .error error := by
  cases ahead : state.ahead (α := α) lexer position with
  | ok r =>
      rw [direct_peek_ok.mpr ⟨r, ahead, rfl, rfl⟩] at failed
      cases failed
  | error found =>
      rw [direct_peek_error ahead] at failed
      cases failed
      rfl

theorem direct_locates (lexer : Lexer) (source : String) :
    (direct (α := α) lexer).Locates (ParseState.Along source) (Location.Ahead source) where
  next position := by
    constructor
    · intro state token after along read
      obtain ⟨r, ahead, rfl, rfl⟩ := direct_next_ok.mp read
      exact (along.token ahead).symm
    · intro state error after along failed
      exact along.fails (direct_next_failed failed)
  peek position := by
    constructor
    · intro state token after along read
      obtain ⟨r, ahead, rfl, rfl⟩ := direct_peek_ok.mp read
      exact ⟨along, (along.token ahead).1⟩
    · intro state error after along failed
      exact along.fails (direct_peek_failed failed)
  declare name fixity power := by
    constructor
    · intro state value after along declared
      cases declared
      exact ⟨along, trivial⟩
    · intro state error after along failed
      cases failed

end TokenSource

/-- The tokens of a text are at places of it, and so is the error if there are none. -/
theorem Lexer.tokens_places (lexer : Lexer) (position : Position) (vocabulary : Vocabulary)
    (interner : Interner) (source : String) :
    (∀ (tokens : List (Token α)) known,
      lexer.tokens position vocabulary interner source.toList = .ok (tokens, known) →
        ∀ token ∈ tokens, token.location.Ahead source) ∧
    ∀ error, lexer.tokens (α := α) position vocabulary interner source.toList = .error error →
      error.location.Ahead source := by
  obtain ⟨read, failed⟩ := lexer.tokens_ahead (α := α) position vocabulary interner source.toList
  exact ⟨read, failed⟩

/-- What was consumed began and ended at places of the text. -/
theorem History.places {operators after : OperatorTable} {log : Log α} {cursor : Cursor}
    (h : History lexer operators (.ofList source.toList) log after cursor) :
    (∃ n, cursor = (Cursor.ofList source.toList).advance n) ∧
      ∀ position known names r, .consumed position known names r ∈ log →
        r.token.location.Ahead source ∧
          ∃ n, r.cursor = (Cursor.ofList source.toList).advance n := by
  induction h with
  | start => exact ⟨⟨0, by rw [Cursor.advance]⟩, fun _ _ _ _ absurd => by cases absurd⟩
  | @consumed log state position r _ read ih =>
      obtain ⟨along, earlier⟩ := ih
      obtain ⟨here, behind⟩ := ParseState.Along.token along read
      refine ⟨behind, fun position' known names r' member => ?_⟩
      rcases List.mem_append.mp member with before | last
      · exact earlier position' known names r' before
      · cases List.mem_singleton.mp last
        exact ⟨here, behind⟩
  | declared _ ih =>
      obtain ⟨along, earlier⟩ := ih
      refine ⟨along, fun position' known names r' member => ?_⟩
      rcases List.mem_append.mp member with before | last
      · exact earlier position' known names r' before
      · cases List.mem_singleton.mp last

end Direct

namespace Grammar

variable [Scalar α] [Numeral α] (grammar : Grammar) (interner : Interner) (source : String)

theorem parse_error_ahead {error : SyntaxError}
    (failed : (grammar.parse (α := α) interner source).outcome = .error error) :
    error.location.Ahead source := by
  have stays := Parser.program_stays (TokenSource.direct_locates (α := α) grammar.lexer source)
    (Parser.stepsFor source.toList)
  have start : (grammar.start interner source).Along source := ⟨0, by rw [Cursor.advance]; rfl⟩
  rw [parse_eq_direct] at failed
  cases ran : grammar.parseDirect (α := α) interner source with
  | ok result state => rw [ran] at failed; cases failed
  | error found state =>
      rw [ran] at failed
      cases failed
      exact stays.error start ran

/-- The log of a parse names places of the text only. -/
theorem history_ahead {position : Position} {operators : OperatorTable} {known : Interner}
    {r : Lexer.Reading α}
    (member : .consumed position operators known r ∈ grammar.history α interner source) :
    r.token.location.Ahead source ∧
      ∃ n, r.cursor = (Cursor.ofList source.toList).advance n := by
  obtain ⟨_, history⟩ := (grammar.parseDirectLogged_agree (α := α) interner source).stateAfter
  rw [history_eq_direct] at member
  exact history.places.2 position operators known r member

end Grammar

section Places

variable [Scalar α] [Numeral α]

/-- A token that begins at a place of a text, with the cursor behind it. -/
structure Lexer.Reading.Oriented (source : String) (reading : Lexer.Reading α) : Prop where
  token : reading.token.location.Within source
  cursor : reading.cursor.Oriented source

/-- A state that knows where it is, and where the token is that it has looked at. -/
structure BufferedState.Oriented (source : String) (state : BufferedState α) : Prop where
  cursor : state.cursor.Oriented source
  buffer : ∀ position token, state.buffer = some (position, token) → token.location.Within source

theorem Location.Ahead.within {source : String} {location : Location}
    (h : location.Ahead source) : location.Within source := by
  obtain ⟨n, rfl⟩ := h
  exact (Cursor.oriented_advance source n).place

theorem Standing.oriented {lexer : Lexer} {source : String} {state : BufferedState α × Log α}
    {direct : ParseState} (h : Standing lexer source.toList state direct) :
    state.1.Oriented source := by
  constructor
  · obtain ⟨n, here⟩ := h.coherent.place
    rw [here]
    exact Cursor.oriented_advance source n
  · intro position token looked
    have read := h.coherent.full position token looked
    exact (ParseState.Along.token h.coherent.consumed read).1.within

/-- Whatever is done to a cursor, it knows where it is, and so is every place that it gave out
within the text. Hence tokens and errors have the line and the column of their byte offset, of a
text that is read as tokens and of one that is parsed, whatever is dropped and read again. -/
theorem places_of_text (source : String) :
    (∀ given cursor, Cursor.Driven source given cursor →
      cursor.Oriented source ∧ ∀ place ∈ given, place.Within source) ∧
    (∀ lexer position vocabulary interner,
      (∀ (tokens : List (Token α)) known,
        Lexer.tokens lexer position vocabulary interner source.toList = .ok (tokens, known) →
          ∀ token ∈ tokens, token.location.Within source) ∧
      ∀ error, lexer.tokens (α := α) position vocabulary interner source.toList = .error error →
        error.location.Within source) ∧
    ∀ grammar interner,
      (∀ error, (Grammar.parse (α := α) grammar interner source).outcome = .error error →
        error.location.Within source) ∧
      (∀ state ∈ grammar.states α interner source, state.1.Oriented source) ∧
      ∀ position operators known reading,
        .consumed position operators known reading ∈ grammar.history α interner source →
          reading.Oriented source := by
  refine ⟨fun given cursor driven => ?_, fun lexer position vocabulary interner => ?_,
    fun grammar interner => ⟨fun error failed => ?_, fun state member => ?_, ?_⟩⟩
  · obtain ⟨⟨m, n, le, rfl⟩, places⟩ := driven.between
    refine ⟨Cursor.oriented_between source le, fun place member => ?_⟩
    obtain ⟨k, rfl⟩ := places place member
    exact Location.within_behind source k
  · obtain ⟨read, failed⟩ := lexer.tokens_places (α := α) position vocabulary interner source
    constructor
    · intro tokens known found token member
      exact (read tokens known found token member).within
    · intro error found
      exact (failed error found).within
  · exact (grammar.parse_error_ahead interner source failed).within
  · obtain ⟨direct, standing⟩ := grammar.states_standing interner source state member
    exact standing.oriented
  · intro position operators known reading member
    obtain ⟨here, n, behind⟩ := grammar.history_ahead interner source member
    exact ⟨here.within, behind ▸ Cursor.oriented_advance source n⟩

/-- A cursor that is taken back over a line feed, from behind two letters of two bytes each, takes
its mark along. -/
theorem places_of_text_taken_back :
    let source := "é\nπ ?"
    let start := Cursor.ofList source.toList
    let first := start.advance 1
    let second := first.advanceOver ['\n', 'π']
    let third := second.setMark
    let cursor := third.reset first.location
    let given := [third.location, second.location, first.location, start.location]
    Cursor.Driven source given cursor ∧
      given = [⟨5, 2, 2⟩, ⟨5, 2, 2⟩, ⟨2, 1, 2⟩, .start] ∧ third.mark = 5 ∧ cursor.mark = 2 ∧
      cursor.Oriented source ∧ (∀ place ∈ given, place.Within source) ∧
      ∃ error, (Grammar.standard.parse (α := Float) .empty source).outcome = .error error ∧
        error.location.Within source := by
  intro source start first second third cursor given
  have driven : Cursor.Driven source given cursor := by
    have ahead : Cursor.Driven source _ first :=
      @Cursor.Driven.perform _ _ _ (.advance 1) .start trivial
    have further : Cursor.Driven source _ second :=
      @Cursor.Driven.perform _ _ _ (.advanceOver ['\n', 'π']) ahead (by decide)
    have marked : Cursor.Driven source _ third := @Cursor.Driven.perform _ _ _ .mark further trivial
    exact @Cursor.Driven.perform _ _ _ (.reset first.location) marked (by decide)
  obtain ⟨driving, _, parsing⟩ := places_of_text (α := Float) source
  obtain ⟨oriented, places⟩ := driving given cursor driven
  have fails : (Grammar.standard.parse (α := Float) .empty source).outcome.isOk = false := by
    decide +kernel
  refine ⟨driven, by decide, by decide, by decide, oriented, places, ?_⟩
  cases outcome : (Grammar.standard.parse (α := Float) .empty source).outcome with
  | ok result => rw [outcome] at fails; cases fails
  | error error => exact ⟨error, rfl, (parsing .standard .empty).1 error outcome⟩

end Places

end IntervalCalc
