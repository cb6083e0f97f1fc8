import IntervalCalc.Proofs.Parsing.Steps

/-!
A parse within a number of rounds. Where no operator is empty, every round of a loop takes some of
the text. With more rounds than the text has characters the loops are over, and the parse does not
depend on what they would come to beyond them. Where an operator is empty, a parse may go on for
ever, but one that ends is no other than the parse that is broken off.
-/

namespace IntervalCalc

variable {α β γ σ τ : Type}

/-- What reading and parsing come to if they go on for too long. -/
structure Beyond (α : Type) where
  reading : Except SyntaxError (Lexer.Reading α)
  tokens : Interner → Cursor → Except SyntaxError (List (Token α) × Interner)
  parse : Parser.Beyond α (BufferedState α)

/-- Reads a token within a number of rounds. -/
def Beyond.reader [Scalar α] [Numeral α] (beyond : Beyond α) (lexer : Lexer) (rounds : Nat) :
    Reader α :=
  fun position vocabulary interner cursor =>
    lexer.nextOr position vocabulary beyond.reading interner rounds cursor

/-- Ways of reading that agree here and where the token that was looked at begins. -/
theorem BufferedState.next_congr {reader reader' : Reader α} {position : Position}
    {state : BufferedState α} (here : read reader position state = read reader' position state)
    (back : read reader position state.rewind = read reader' position state.rewind) :
    next reader position state = next reader' position state := by
  unfold next
  rw [here, back]

theorem Agree.and {I : τ → Prop} {R : σ → τ → Prop} {x : EStateM.Result SyntaxError σ β}
    {y : EStateM.Result SyntaxError τ β} (h : Agree R x y)
    (h' : Agree (fun s t => s = t ∧ I s) y y) : Agree (fun s t => R s t ∧ I t) x y := by
  cases x with
  | ok value s =>
      cases y with
      | ok other t => exact ⟨h.1, h.2, h'.2.2⟩
      | error error t => exact h
  | error error s =>
      cases y with
      | ok other t => exact h
      | error other t => exact ⟨h.1, h.2, h'.2.2⟩

/-- What the second source keeps can be added to a simulation. -/
theorem TokenSource.Simulates.and {S : TokenSource α σ} {T : TokenSource α τ} {R : σ → τ → Prop}
    {I : τ → Prop} (h : S.Simulates T R) (h' : T.Simulates T fun s t => s = t ∧ I s) :
    S.Simulates T fun s t => R s t ∧ I t where
  operators related := h.operators related.1
  interner related := h.interner related.1
  next position s t related :=
    (h.next position s t related.1).and (h'.next position t t ⟨rfl, related.2⟩)
  peek position s t related :=
    (h.peek position s t related.1).and (h'.peek position t t ⟨rfl, related.2⟩)
  named related := h.named related.1
  declare fixity power identifier s t related :=
    (h.declare fixity power identifier s t related.1).and
      (h'.declare fixity power identifier t t ⟨rfl, related.2⟩)

/-- No operator of the text becomes empty by a declaration. -/
theorem OperatorTable.clear_insert {operators : OperatorTable} {name : String} {operator : Operator}
    (clear : "" ∉ operators.keys) (identifier : isIdentifier name.toList) :
    "" ∉ (operators.insert name operator).keys := by
  rw [OrderedMap.keys_insert]
  split
  · exact clear
  · rw [List.mem_append, List.mem_singleton, not_or]
    refine ⟨clear, ?_⟩
    rintro rfl
    exact absurd identifier Bool.false_ne_true

section Agreement

variable [Scalar α] [Numeral α] {lexer : Lexer} {text : List Char}

theorem TokenSource.direct_clear (lexer : Lexer) : (direct (α := α) lexer).Simulates (direct lexer)
    fun s t => s = t ∧ "" ∉ s.operators.keys :=
  direct_preserves (fun clear _ => clear) (fun clear _ => clear)
    fun clear identifier => OperatorTable.clear_insert clear identifier

theorem BufferedState.Coherent.length_le {buffered : BufferedState α} {direct : ParseState}
    (h : buffered.Coherent lexer text direct) :
    buffered.cursor.rest.length ≤ text.length := by
  obtain ⟨n, place⟩ := h.place
  rw [place, Cursor.length_rest_advance]
  exact Nat.sub_le _ _

/-- Coherent states without an empty operator, with at most so many characters left. -/
def Facing (lexer : Lexer) (text : List Char) (n : Nat) (buffered : BufferedState α)
    (direct : ParseState) : Prop :=
  (buffered.Coherent lexer text direct ∧ "" ∉ direct.operators.keys) ∧ direct.size ≤ n

theorem Facing.of_le {n k : Nat} {buffered : BufferedState α} {direct : ParseState} (le : n ≤ k)
    (h : Facing lexer text n buffered direct) : Facing lexer text k buffered direct :=
  ⟨h.1, Nat.le_trans h.2 le⟩

theorem Beyond.read_eq {beyond : Beyond α} {rounds : Nat} {position : Position}
    {state : BufferedState α} (enough : state.cursor.rest.length < rounds) :
    BufferedState.read (beyond.reader lexer rounds) position state =
      BufferedState.read lexer.next position state := by
  unfold BufferedState.read reader
  rw [Lexer.nextOr_eq_next enough]

/-- The tokens of a text are found within as many rounds as it has characters, and one more. -/
theorem TokenSource.buffered_simulates_within {beyond : Beyond α} {rounds : Nat}
    (enough : text.length < rounds) (n : Nat) :
    (buffered (beyond.reader lexer rounds)).Simulates (direct (α := α) lexer)
      (Facing lexer text n) := by
  have simulates :=
    ((buffered_simulates (α := α) lexer text).and (direct_clear lexer)).and (direct_within lexer n)
  have same {b : BufferedState α} {t : ParseState} (facing : Facing lexer text n b t)
      (position : Position) : BufferedState.next (beyond.reader lexer rounds) position b =
        BufferedState.next lexer.next position b := by
    have coherent := facing.1.1
    refine BufferedState.next_congr (Beyond.read_eq ?_) (Beyond.read_eq ?_)
    · exact Nat.lt_of_le_of_lt coherent.length_le enough
    · exact Nat.lt_of_le_of_lt coherent.rewind.length_le enough
  refine ⟨simulates.operators, simulates.interner, ?_, ?_, ?_, simulates.declare⟩
  · intro position b t facing
    have agree := simulates.next position b t facing
    change Agree _ (BufferedState.next _ position b) _
    rw [same facing]
    exact agree
  · intro position b t facing
    have agree := simulates.peek position b t facing
    change Agree _ (BufferedState.peek _ position b) _
    rw [BufferedState.peek, same facing]
    exact agree
  · intro b b' t position token facing read
    change BufferedState.next _ position b = _ at read
    rw [same facing] at read
    exact simulates.named facing read

end Agreement

namespace Parser

variable [Scalar α] [Numeral α] {lexer : Lexer} {text : List Char}
variable {source : TokenSource α (BufferedState α)} {beyond : Beyond α (BufferedState α)}
variable (simulates : ∀ n, source.Simulates (.direct lexer) (Facing lexer text n))

include simulates

/-- The end of the text takes nothing, and any other token leaves fewer characters. -/
theorem next_facing {n : Nat} {position : Position} {f : Token α → ParseM (BufferedState α) β}
    {g : Token α → ParseM ParseState β}
    (ends : ∀ token, token.kind = .endOfInput → Alike (Facing lexer text n) (f token) (g token))
    (later : ∀ k, k < n → ∀ token, Alike (Facing lexer text k) (f token) (g token)) :
    Alike (Facing lexer text n) (source.next position >>= f)
      ((TokenSource.direct lexer).next position >>= g) := by
  intro b t facing
  refine ((simulates n).next position b t facing).bind (fun _ _ => id) ?_
  intro token b' t' _ read related
  obtain ⟨r, ahead, rfl, rfl⟩ := TokenSource.direct_next_ok.mp read
  rcases ParseState.progress ahead with ended | empty | less
  · exact ends r.token ended b' _ related
  · exact absurd empty ((Lexer.lexes_of_next ahead).solid facing.1.2)
  · have small : (t.consume r).size < n := Nat.lt_of_lt_of_le less facing.2
    exact (later _ small r.token b' _ ⟨related.1, Nat.le_refl _⟩).imp
      fun _ _ => Facing.of_le (Nat.le_of_lt small)

/-- A list of arguments has no more members than rounds. -/
theorem argumentsOr_facing {e : Power → ParseM (BufferedState α) (Expr α)} {n : Nat}
    (inner : ∀ k, k < n → ∀ power,
      Alike (Facing lexer text k) (e power) (Direct.expression lexer power)) (closing : String)
    (rounds : Nat) : ∀ k, k < n → k < rounds →
      Alike (Facing lexer text k) (argumentsOr source beyond e closing rounds)
        (Direct.arguments lexer closing) := by
  induction rounds with
  | zero => exact fun k _ absurd => (Nat.not_lt_zero k absurd).elim
  | succ rounds ih =>
      intro k less short b t facing
      rw [Direct.arguments_eq]
      refine (inner k less 0 b t facing).bind (fun _ _ => id) ?_
      intro first b' t' _ ran related
      have shorter := Direct.shortens_expression 0 t first t' ran
      have small : t'.size < k := Nat.lt_of_lt_of_le shorter facing.2
      have members : Alike (Facing lexer text t'.size) (argumentsOr source beyond e closing rounds)
          (Direct.arguments lexer closing) := ih t'.size (by omega) (by omega)
      refine Agree.imp (R := Facing lexer text t'.size) ?_ fun _ _ =>
        Facing.of_le (Nat.le_of_lt small)
      refine (((simulates t'.size).skipIf ",").bind fun more => ?_) b' t'
        ⟨related.1, Nat.le_refl _⟩
      split
      · exact members.bind fun rest => .pure _
      · exact ((simulates t'.size).expect closing).bind fun _ => .pure _

theorem expressionOr_facing (n : Nat) : ∀ k, k < n →
    (∀ power, Alike (Facing lexer text k) (expressionOr source beyond n power)
      (Direct.expression lexer power)) ∧
    ∀ power left, Alike (Facing lexer text k) (extendOr source beyond n power left)
      (Direct.extend lexer power left) := by
  induction n with
  | zero => exact fun k absurd => (Nat.not_lt_zero k absurd).elim
  | succ n ih =>
      intro k less
      constructor
      · intro power
        rw [expressionOr, funext (Direct.expression_eq (α := α) power)]
        refine next_facing simulates (fun token ends => ?_) fun j small token => ?_
        · rw [prefixForm_end ends, prefixForm_end ends, unexpected_bind, unexpected_bind]
          exact TokenSource.Simulates.unexpected token
        · obtain ⟨inner, later⟩ := ih j (by omega)
          exact ((simulates j).prefixForm inner token).bind (later power)
      · intro power left
        rw [extendOr, funext (Direct.extend_eq (α := α) power left)]
        refine (simulates k).leftPower.bind fun found => ?_
        split
        · refine next_facing simulates (fun token ends => ?_) fun j small token => ?_
          · dsimp only
            rw [infixForm_end ends, infixForm_end ends, unexpected_bind, unexpected_bind]
            exact TokenSource.Simulates.unexpected token
          · obtain ⟨inner, later⟩ := ih j (by omega)
            refine ((simulates j).infixForm inner (fun closing => ?_) token left).bind (later power)
            have inner := fun i small => (ih i small).1
            exact argumentsOr_facing simulates inner closing n j (by omega) (by omega)
        · exact .pure left

end Parser

namespace Parser

variable [Scalar α] [Numeral α] (S : TokenSource α σ)

/-- Going on for some more steps, and then breaking off. -/
def goingOn (more : Nat) : Beyond α σ where
  arguments expression closing := arguments S expression closing more
  expression := expression S more
  extend := extend S more

theorem argumentsOr_goingOn (more : Nat) (e : Power → ParseM σ (Expr α)) (closing : String)
    (steps : Nat) : argumentsOr S (goingOn S more) e closing steps =
      arguments S e closing (steps + more) := by
  induction steps with
  | zero => rw [Nat.zero_add]; rfl
  | succ steps ih =>
      rw [Nat.succ_add, arguments, argumentsOr, argumentsOr, ih]
      rfl

/-- The steps before and behind are the steps of one parse. -/
theorem expressionOr_goingOn (more : Nat) (steps : Nat) :
    expressionOr S (goingOn S more) steps = expression S (steps + more) ∧
      extendOr S (goingOn S more) steps = extend S (steps + more) := by
  induction steps with
  | zero =>
      rw [Nat.zero_add]
      constructor
      · funext power
        rw [expressionOr]
        rfl
      · funext power left
        rw [extendOr]
        rfl
  | succ steps ih =>
      obtain ⟨inner, later⟩ := ih
      rw [Nat.succ_add]
      constructor
      · funext power
        rw [expressionOr, expression_succ, inner, later]
      · funext power left
        rw [extendOr, extend_succ, inner, later]
        simp only [argumentsOr_goingOn]

end Parser

variable [Scalar α] [Numeral α]

/-- A parse that ends in some number of steps, so that nothing depends on what it would come to
beyond them, is the parse that is broken off, whatever the operators are. -/
theorem Grammar.parse_of_ends {grammar : Grammar} {interner : Interner} {source : String}
    {steps : Nat} {result : Parsed α}
    (ends : ∀ beyond, grammar.parseOr grammar.lexer.next beyond steps interner source = result) :
    grammar.parse interner source = result := by
  let more := Parser.stepsFor source.toList
  have simulates := TokenSource.buffered_simulates (α := α) grammar.lexer source.toList
  have last : Parser.programOr (.buffered grammar.lexer.next)
      (Parser.goingOn (.buffered grammar.lexer.next) more) steps =
        Parser.program (α := α) (.buffered grammar.lexer.next) (steps + more) := by
    rw [Parser.programOr, (Parser.expressionOr_goingOn _ more steps).1, Parser.program_eq]
  have enough : Parser.stepsFor (grammar.start interner source).cursor.rest ≤ steps + more :=
    Nat.le_add_left _ _
  have agree := simulates.program (steps + more) ⟨grammar.start interner source, none⟩ _
    (grammar.coherent_start interner source)
  rw [← ends (Parser.goingOn _ more), parseOr_eq_parsed, last, parse_eq_direct,
    simulates.parsed agree grammar.lexer, Parser.program_eq, parseDirect_eq]
  exact congrArg _ (Run.bind_congr (Direct.expression_steps enough 0)).symm

/-- With more rounds than characters, a parse is over. -/
theorem Grammar.parseOr_eq {beyond : Beyond α} {rounds : Nat} {grammar : Grammar}
    (clear : "" ∉ grammar.operators.keys) (interner : Interner) {source : String}
    (enough : source.toList.length < rounds) :
    grammar.parseOr (beyond.reader grammar.lexer rounds) beyond.parse rounds interner source =
      grammar.parse interner source := by
  have simulates := fun n => @TokenSource.buffered_simulates_within α _ _ grammar.lexer
    source.toList beyond rounds enough n
  have facing : Facing (α := α) grammar.lexer source.toList source.toList.length
      ⟨grammar.start interner source, none⟩ (grammar.start interner source) :=
    ⟨⟨grammar.coherent_start interner source, clear⟩, Nat.le_refl _⟩
  rw [parseOr_eq_parsed, parse_eq_direct, parseDirect_eq]
  refine (simulates source.toList.length).parsed ?_ grammar.lexer
  refine Alike.bind ((Parser.expressionOr_facing simulates rounds _ enough).1 0) (fun result => ?_)
    _ _ facing
  refine ((simulates _).next .operator).bind fun token => ?_
  split
  · exact .pure result
  · exact TokenSource.Simulates.unexpected token

end IntervalCalc
