import IntervalCalc.Proofs.Parsing.History

/-!
The number of steps of a parse. Between two characters a parse takes at most two steps, unless it
reads an operator of empty name for ever, and then all numbers of steps end with the same error. So
more steps than there are for a text change nothing. A parse is therefore a recursion over what is
left of the text, and obeys the equations of one.
-/

namespace IntervalCalc

variable {α β γ : Type}

theorem Alike.after {I : β → Prop} {x : ParseM β γ} (h : Alike (fun s t => s = t ∧ I s) x x)
    {s s' : β} {value : γ} (before : I s) (ran : x s = .ok value s') : I s' := by
  have agree := h s s ⟨rfl, before⟩
  rw [ran] at agree
  exact agree.2.2

theorem Agree.eq {I : β → Prop} {x y : EStateM.Result SyntaxError β γ}
    (h : Agree (fun s t => s = t ∧ I s) x y) : x = y := by
  cases x with
  | ok value s =>
      cases y with
      | ok other t => obtain ⟨rfl, rfl, _⟩ := h; rfl
      | error error t => exact h.elim
  | error error s =>
      cases y with
      | ok other t => exact h.elim
      | error other t => obtain ⟨rfl, rfl, _⟩ := h; rfl

theorem Alike.eq_of {I : β → Prop} {x y : ParseM β γ} (h : Alike (fun s t => s = t ∧ I s) x y)
    {s : β} (before : I s) : x s = y s :=
  (h s s ⟨rfl, before⟩).eq

def ParseState.size (state : ParseState) : Nat :=
  state.cursor.rest.length

/-- The same state, with at most some number of characters left. -/
def Within (n : Nat) (s t : ParseState) : Prop :=
  s = t ∧ s.size ≤ n

/-- Steps that follow have to agree only behind states that the first one leaves. -/
theorem Agree.within_bind {n : Nat} {x y : ParseM ParseState β} {f g : β → ParseM ParseState γ}
    {s : ParseState} (h : Agree (Within n) (x s) (y s))
    (later : ∀ value s', x s = .ok value s' → s'.size ≤ n →
      Agree (Within n) (f value s') (g value s')) :
    Agree (Within n) ((x >>= f) s) ((y >>= g) s) := by
  refine h.bind (fun _ _ => id) ?_
  rintro value s' _ ran _ ⟨rfl, left⟩
  exact later value s' ran left

/-- Steps that are alike for as many characters as are left agree. -/
theorem Alike.within {n k : Nat} {x y : ParseM ParseState β} (h : Alike (Within k) x y)
    {s : ParseState} (bound : s.size ≤ k) (less : k ≤ n) : Agree (Within n) (x s) (y s) :=
  (h s s ⟨rfl, bound⟩).imp fun _ _ within => ⟨within.1, Nat.le_trans within.2 less⟩

section Direct

variable [Scalar α] [Numeral α] {lexer : Lexer}

/-- What consuming, looking and declaring preserve, all steps of a parse preserve. -/
theorem TokenSource.direct_preserves {I : ParseState → Prop}
    (consume : ∀ {s : ParseState} {position : Position} {r : Lexer.Reading α}, I s →
      s.ahead lexer position = .ok r → I (s.consume r))
    (look : ∀ {s : ParseState} {position : Position} {r : Lexer.Reading α}, I s →
      s.ahead lexer position = .ok r → I { s with interner := r.interner })
    (declare : ∀ {s : ParseState} {name : String} {fixity : Fixity} {power : Power}, I s →
      isIdentifier name.toList → I (s.declare name fixity power)) :
    (direct (α := α) lexer).Simulates (direct lexer) fun s t => s = t ∧ I s where
  operators same := congrArg _ same.1
  interner same := congrArg _ same.1
  next position := by
    rintro s _ ⟨rfl, before⟩
    cases read : s.ahead (α := α) lexer position with
    | error error =>
        rw [direct_next_error read]
        exact ⟨rfl, rfl, before⟩
    | ok r =>
        rw [direct_next_ok.mpr ⟨r, read, rfl, rfl⟩]
        exact ⟨rfl, rfl, consume before read⟩
  peek position := by
    rintro s _ ⟨rfl, before⟩
    cases read : s.ahead (α := α) lexer position with
    | error error =>
        rw [direct_peek_error read]
        exact ⟨rfl, rfl, before⟩
    | ok r =>
        rw [direct_peek_ok.mpr ⟨r, read, rfl, rfl⟩]
        exact ⟨rfl, rfl, look before read⟩
  named _ read := by
    obtain ⟨r, ahead, rfl, _⟩ := direct_next_ok.mp read
    exact ParseState.named_of_ahead ahead
  declare fixity power identifier := by
    rintro s _ ⟨rfl, before⟩
    exact ⟨rfl, rfl, declare before identifier⟩

theorem ParseState.size_consume_le {s : ParseState} {position : Position} {r : Lexer.Reading α}
    (read : s.ahead lexer position = .ok r) : (s.consume r).size ≤ s.size := by
  obtain ⟨m, n, _, forward, _⟩ := (Lexer.lexes_of_next read).place
  change r.cursor.rest.length ≤ s.cursor.rest.length
  rw [forward, Cursor.length_rest_advance, Cursor.length_rest_advance]
  omega

/-- A token is the end of the text, or takes some of it unless it is the operator of empty name. -/
theorem ParseState.progress {s : ParseState} {position : Position} {r : Lexer.Reading α}
    (read : s.ahead lexer position = .ok r) :
    r.token.kind = .endOfInput ∨ r.token.kind = .operator "" ∨ (s.consume r).size < s.size := by
  rcases (Lexer.lexes_of_next read).progress with ⟨ends, _⟩ | ⟨_, less⟩
  · exact .inl ends
  · by_cases empty : r.token.kind = .operator ""
    · exact .inr (.inl empty)
    · exact .inr (.inr (less empty))

/-- The operator of empty name stays ahead in the position that it was read in. -/
theorem ParseState.ahead_of_empty {s : ParseState} {position : Position} {r : Lexer.Reading α}
    (read : s.ahead lexer position = .ok r) (empty : r.token.kind = .operator "") :
    (s.consume r).ahead lexer position = .ok r :=
  ((Lexer.lexes_of_next read).again_of_empty empty).next

theorem TokenSource.direct_within (lexer : Lexer) (n : Nat) :
    (direct (α := α) lexer).Simulates (direct lexer) (Within n) :=
  direct_preserves (fun before read => Nat.le_trans (ParseState.size_consume_le read) before)
    (fun before _ => before) (fun before _ => before)

end Direct

/-- The power with which a token holds the operand before it. -/
def OperatorTable.powerOf (operators : OperatorTable) : TokenKind α → Power
  | .operator name => (operators.find? name).elim 0 (·.leftPower)
  | _ => 0

theorem OperatorTable.not_end_of_lt {operators : OperatorTable} {kind : TokenKind α} {power : Power}
    (tight : power < operators.powerOf kind) : kind ≠ .endOfInput := by
  rintro rfl
  exact absurd tight (Nat.not_lt_zero power)

namespace Parser

section Tokens

variable {σ : Type} {S : TokenSource α σ} {e : Power → ParseM σ (Expr α)} {token : Token α}
variable {list : String → ParseM σ (List (Expr α))}

theorem prefixForm_end [Scalar α] [Numeral α] (ends : token.kind = .endOfInput) :
    prefixForm S e token = unexpected token := by
  obtain ⟨kind, location⟩ := token
  obtain rfl : kind = .endOfInput := ends
  rfl

theorem infixForm_end [Numeral α] {left : Expr α}
    (ends : token.kind = .endOfInput) : infixForm S list e token left = unexpected token := by
  obtain ⟨kind, location⟩ := token
  obtain rfl : kind = .endOfInput := ends
  rfl

theorem prefixForm_literal [Scalar α] [Numeral α] {state : σ} {value : Expr α}
    (kind : token.kind = .literal value) : prefixForm S e token state = .ok value state := by
  rw [prefixForm, kind]
  rfl

theorem prefixForm_known [Scalar α] [Numeral α] {state : σ} {name : String} {rule : PrefixRule}
    (kind : token.kind = .operator name)
    (known : ((S.view state).operators.find? name).bind (·.prefixRule) = some rule) :
    prefixForm S e token state = applyPrefix S e token.location rule state := by
  have found : operator? S name state = .ok ((S.view state).operators.find? name) state := rfl
  rw [prefixForm, kind]
  dsimp only
  rw [Run.bind_ok found, known]

theorem prefixForm_unknown [Scalar α] [Numeral α] {state : σ} {name : String}
    (kind : token.kind = .operator name)
    (unknown : ((S.view state).operators.find? name).bind (·.prefixRule) = none) :
    prefixForm S e token state = unexpected token state := by
  have found : operator? S name state = .ok ((S.view state).operators.find? name) state := rfl
  rw [prefixForm, kind]
  dsimp only
  rw [Run.bind_ok found, unknown]

theorem infixForm_known [Numeral α] {state : σ} {name : String} {operator : Operator}
    {rule : InfixRule} (kind : token.kind = .operator name)
    (known : (S.view state).operators.find? name = some operator)
    (holds : operator.infixRule = some rule) (left : Expr α) :
    infixForm S list e token left state =
      applyInfix S list e token.location operator.leftPower left rule state := by
  have found : operator? S name state = .ok ((S.view state).operators.find? name) state := rfl
  rw [infixForm, kind]
  dsimp only
  rw [Run.bind_ok found, known]
  dsimp only
  rw [holds]

theorem prefixForm_ok [Scalar α] [Numeral α] {state state' : σ} {value : Expr α}
    (h : prefixForm S e token state = .ok value state') :
    (token.kind = .literal value ∧ state' = state) ∨ ∃ name operator rule,
      token.kind = .operator name ∧ (S.view state).operators.find? name = some operator ∧
        operator.prefixRule = some rule ∧
        applyPrefix S e token.location rule state = .ok value state' := by
  cases kind : token.kind with
  | literal literal =>
      rw [prefixForm_literal kind] at h
      cases h
      exact .inl ⟨rfl, rfl⟩
  | endOfInput =>
      rw [prefixForm_end kind] at h
      exact absurd h unexpected_ne_ok
  | operator name =>
      cases known : ((S.view state).operators.find? name).bind (·.prefixRule) with
      | none =>
          rw [prefixForm_unknown kind known] at h
          exact absurd h unexpected_ne_ok
      | some rule =>
          obtain ⟨operator, found, holds⟩ := Option.bind_eq_some_iff.mp known
          rw [prefixForm_known kind known] at h
          exact .inr ⟨name, operator, rule, rfl, found, holds, h⟩

theorem infixForm_ok [Numeral α] {state state' : σ} {left value : Expr α}
    (h : infixForm S list e token left state = .ok value state') : ∃ name operator rule,
      token.kind = .operator name ∧ (S.view state).operators.find? name = some operator ∧
        operator.infixRule = some rule ∧
        applyInfix S list e token.location operator.leftPower left rule state =
          .ok value state' := by
  cases kind : token.kind with
  | literal literal =>
      rw [infixForm, kind] at h
      exact absurd h unexpected_ne_ok
  | endOfInput =>
      rw [infixForm_end kind] at h
      exact absurd h unexpected_ne_ok
  | operator name =>
      have found : operator? S name state = .ok ((S.view state).operators.find? name) state := rfl
      cases known : (S.view state).operators.find? name with
      | none =>
          rw [infixForm, kind] at h
          dsimp only at h
          rw [Run.bind_ok found, known] at h
          exact absurd h unexpected_ne_ok
      | some operator =>
          cases holds : operator.infixRule with
          | none =>
              rw [infixForm, kind] at h
              dsimp only at h
              rw [Run.bind_ok found, known] at h
              dsimp only at h
              rw [holds] at h
              exact absurd h unexpected_ne_ok
          | some rule =>
              rw [infixForm_known kind known holds] at h
              exact ⟨name, operator, rule, rfl, known, holds, h⟩

theorem unexpected_operator [Numeral α] {state : σ} {name : String}
    (kind : token.kind = .operator name) :
    (unexpected token : ParseM σ β) state =
      .error ⟨.unexpectedToken name, token.location⟩ state := by
  rw [unexpected, kind]
  rfl

/-- Every rule before an operand but that of a declaration begins with an expression. -/
theorem applyPrefix_of_error [Scalar α] [Numeral α] {state : σ} {error : SyntaxError}
    {rule : PrefixRule} (other : ∀ fixity, rule ≠ .declare fixity)
    (fails : ∀ power, e power state = .error error state) (location : Location) :
    applyPrefix S e location rule state = .error error state := by
  cases rule with
  | unary op power => exact Run.bind_error (fails power)
  | apply head power => exact Run.bind_error (fails power)
  | group closing => exact Run.bind_error (fails 0)
  | branch => exact Run.bind_error (fails 0)
  | function => exact Run.bind_error (fails 0)
  | declare fixity => exact absurd rfl (other fixity)

theorem unexpected_bind [Numeral α] {g : β → ParseM σ γ} :
    (unexpected token : ParseM σ β) >>= g = unexpected token := by
  obtain ⟨kind, location⟩ := token
  cases kind <;> rfl

end Tokens

variable [Scalar α] [Numeral α]

theorem expression_succ {σ : Type} (S : TokenSource α σ) (steps : Nat) (power : Power) :
    expression S (steps + 1) power = (do
      let token ← S.next .operand
      let left ← prefixForm S (expression S steps) token
      extend S steps power left) :=
  rfl

theorem extend_succ {σ : Type} (S : TokenSource α σ) (steps : Nat) (power : Power)
    (left : Expr α) :
    extend S (steps + 1) power left = (do
      if power < (← leftPower S) then
        let token ← S.next .operator
        let list := arguments S (expression S steps)
        let left ← infixForm S (list · steps) (expression S steps) token left
        extend S steps power left
      else return left) :=
  rfl

theorem program_eq {σ : Type} (S : TokenSource α σ) (steps : Nat) :
    program S steps = (do
      let result ← expression S steps 0
      let token ← S.next .operator
      if isEnd token then return result else unexpected token) :=
  rfl

variable {lexer : Lexer}

theorem leftPower_error {s : ParseState} {error : SyntaxError}
    (read : s.ahead (α := α) lexer .operator = .error error) :
    leftPower (.direct (α := α) lexer) s = .error error s :=
  Run.bind_error (TokenSource.direct_peek_error read)

theorem leftPower_eq {s : ParseState} {r : Lexer.Reading α}
    (read : s.ahead lexer .operator = .ok r) :
    leftPower (.direct (α := α) lexer) s =
      .ok (s.operators.powerOf r.token.kind) { s with interner := r.interner } := by
  rw [leftPower, Run.bind_ok (TokenSource.direct_peek_ok.mpr ⟨r, read, rfl, rfl⟩)]
  cases kind : r.token.kind with
  | operator name => rfl
  | literal value => rfl
  | endOfInput => rfl

section Ahead

variable {power : Power} {s : ParseState} {r : Lexer.Reading α}
variable (read : s.ahead lexer .operator = .ok r)

include read

/-- With however many steps, an operand is left as it is if what follows does not bind tighter. -/
theorem extend_of_loose {steps : Nat} (loose : s.operators.powerOf r.token.kind ≤ power)
    (left : Expr α) :
    extend (.direct lexer) steps power left s = .ok left { s with interner := r.interner } := by
  have stays := Nat.not_lt_of_le loose
  cases steps with
  | zero =>
      rw [extend, extendOr, brokenOff]
      dsimp only
      rw [Run.bind_ok (leftPower_eq read), if_neg stays]
      rfl
  | succ steps =>
      rw [extend_succ, Run.bind_ok (leftPower_eq read), if_neg stays]
      rfl

variable (tight : power < s.operators.powerOf r.token.kind)

include tight

theorem extend_zero_of_tight (left : Expr α) :
    extend (.direct lexer) 0 power left s = unexpected r.token (s.consume r) := by
  have consumed := TokenSource.direct_next_ok.mpr ⟨r, ParseState.ahead_again read, rfl, rfl⟩
  rw [extend, extendOr, brokenOff]
  dsimp only
  rw [Run.bind_ok (leftPower_eq read), if_pos tight, Run.bind_ok consumed]
  rfl

theorem extend_succ_of_tight {steps : Nat} (left : Expr α) :
    extend (.direct lexer) (steps + 1) power left s = (do
      let inner := expression (.direct lexer) steps
      let left ← infixForm (.direct lexer) (arguments (.direct lexer) inner · steps) inner
        r.token left
      extend (.direct lexer) steps power left) (s.consume r) := by
  have consumed := TokenSource.direct_next_ok.mpr ⟨r, ParseState.ahead_again read, rfl, rfl⟩
  rw [extend_succ, Run.bind_ok (leftPower_eq read), if_pos tight, Run.bind_ok consumed]
  rfl

end Ahead

section Empty

variable {s : ParseState} {r : Lexer.Reading α} (empty : r.token.kind = .operator "")

include empty

/-- Where an operand begins with the operator of empty name, every parse ends with the same error,
however many steps it takes. -/
theorem expression_of_empty (read : s.ahead lexer .operand = .ok r) :
    ∃ error, ∀ steps power, expression (.direct (α := α) lexer) (steps + 1) power s =
      .error error (s.consume r) := by
  have here : (TokenSource.direct (α := α) lexer).next .operand (s.consume r) =
      .ok r.token (s.consume r) :=
    TokenSource.direct_next_ok.mpr ⟨r, ParseState.ahead_of_empty read empty, rfl, rfl⟩
  suffices formed : ∃ error, ∀ steps, prefixForm (.direct lexer)
      (expression (.direct (α := α) lexer) steps) r.token (s.consume r) =
        .error error (s.consume r) by
    obtain ⟨error, fails⟩ := formed
    refine ⟨error, fun steps power => ?_⟩
    rw [expression_succ, Run.bind_ok (TokenSource.direct_next_ok.mpr ⟨r, read, rfl, rfl⟩),
      Run.bind_error (fails steps)]
  cases known : (s.operators.find? "").bind (·.prefixRule) with
  | none =>
      exact ⟨_, fun steps => (prefixForm_unknown empty known).trans (unexpected_operator empty)⟩
  | some rule =>
      by_cases declares : ∃ fixity, rule = .declare fixity
      · obtain ⟨fixity, rfl⟩ := declares
        refine ⟨⟨.invalidOperand .operatorName "", r.token.location⟩, fun steps => ?_⟩
        rw [prefixForm_known empty known, applyPrefix, declaration, Run.bind_ok here, declaredName,
          empty]
        rfl
      · refine ⟨⟨.unexpectedToken "", r.token.location⟩, fun steps => ?_⟩
        -- the operand asked for begins with the same operator again
        induction steps with
        | zero =>
            rw [prefixForm_known empty known]
            exact applyPrefix_of_error (fun fixity same => declares ⟨fixity, same⟩)
              (fun power => (Run.bind_ok here).trans (unexpected_operator empty)) _
        | succ steps ih =>
            rw [prefixForm_known empty known]
            refine applyPrefix_of_error (fun fixity same => declares ⟨fixity, same⟩)
              (fun power => ?_) _
            rw [expression_succ, Run.bind_ok here, Run.bind_error ih]

end Empty

/-- An expression takes some of the text. -/
theorem expression_size {steps : Nat} {power : Power} {s s' : ParseState} {result : Expr α}
    (h : expression (.direct lexer) steps power s = .ok result s') : s'.size < s.size := by
  cases steps with
  | zero =>
      obtain ⟨token, middle, _, h⟩ := Run.bind_eq_ok h
      exact absurd h unexpected_ne_ok
  | succ steps =>
      obtain ⟨token, middle, read, rest⟩ := Run.bind_eq_ok h
      obtain ⟨left, between, formed, extended⟩ := Run.bind_eq_ok rest
      obtain ⟨r, ahead, rfl, rfl⟩ := TokenSource.direct_next_ok.mp read
      rcases ParseState.progress ahead with ends | empty | less
      · change prefixForm _ _ _ _ = _ at formed
        rw [prefixForm_end ends] at formed
        exact absurd formed unexpected_ne_ok
      · obtain ⟨error, fails⟩ := expression_of_empty empty ahead
        rw [fails] at h
        cases h
      · have within := TokenSource.direct_within (α := α) lexer (s.consume r).size
        have both := within.expression_and_extend steps
        have first := (within.prefixForm both.1 r.token).after (Nat.le_refl _) formed
        exact Nat.lt_of_le_of_lt ((both.2 power left).after first extended) less

/-- A step that never goes back in the text. -/
def Advances (x : ParseM ParseState β) : Prop :=
  ∀ s value s', x s = .ok value s' → s'.size ≤ s.size

/-- A step that takes some of the text. -/
def Shortens (x : ParseM ParseState β) : Prop :=
  ∀ s value s', x s = .ok value s' → s'.size < s.size

section Amounts

variable {x : ParseM ParseState β} {f : β → ParseM ParseState γ}

theorem Shortens.advances (h : Shortens x) : Advances x :=
  fun s value s' ran => Nat.le_of_lt (h s value s' ran)

theorem Advances.pure (value : β) : Advances (Pure.pure value) := by
  intro s _ s' ran
  cases ran
  exact Nat.le_refl _

theorem Advances.of_alike (h : ∀ n, Alike (Within n) x x) : Advances x :=
  fun s _ _ ran => (h s.size).after (Nat.le_refl _) ran

theorem Advances.bind (h : Advances x) (later : ∀ value, Advances (f value)) :
    Advances (x >>= f) := by
  intro s result s' ran
  obtain ⟨value, middle, first, rest⟩ := Run.bind_eq_ok ran
  exact Nat.le_trans (later value middle result s' rest) (h s value middle first)

theorem Shortens.bind (h : Shortens x) (later : ∀ value, Advances (f value)) :
    Shortens (x >>= f) := by
  intro s result s' ran
  obtain ⟨value, middle, first, rest⟩ := Run.bind_eq_ok ran
  exact Nat.lt_of_le_of_lt (later value middle result s' rest) (h s value middle first)

end Amounts

theorem shortens_expression (steps : Nat) (power : Power) :
    Shortens (expression (.direct (α := α) lexer) steps power) :=
  fun _ _ _ => expression_size

section Lists

variable {e e' : Power → ParseM ParseState (Expr α)}

theorem advances_skipIf (name : String) : Advances (skipIf (.direct (α := α) lexer) name) :=
  .of_alike fun n => (TokenSource.direct_within lexer n).skipIf name

theorem advances_expect (name : String) : Advances (expect (.direct (α := α) lexer) name) :=
  .of_alike fun n => (TokenSource.direct_within lexer n).expect name

theorem shortens_arguments (takes : ∀ power, Shortens (e power)) (closing : String) (rounds : Nat) :
    Shortens (arguments (.direct lexer) e closing rounds) := by
  induction rounds with
  | zero =>
      intro s list s' ran
      obtain ⟨token, middle, _, rest⟩ := Run.bind_eq_ok ran
      exact absurd rest unexpected_ne_ok
  | succ rounds ih =>
      refine (takes 0).bind fun first => (advances_skipIf ",").bind fun more => ?_
      split
      · exact ih.advances.bind fun others => .pure _
      · exact (advances_expect closing).bind fun _ => .pure _

/-- A list of arguments has no more members than characters. -/
theorem arguments_within (takes : ∀ power, Shortens (e power)) {closing : String} {n : Nat} :
    ∀ m k, n ≤ m → k < n → (∀ j, j ≤ k → ∀ power, Alike (Within j) (e power) (e' power)) →
      Alike (Within k) (arguments (.direct lexer) e closing n)
        (arguments (.direct lexer) e' closing m) := by
  induction n with
  | zero => exact fun m k _ absurd => by cases absurd
  | succ n ih =>
      rintro m k more less inner s _ ⟨rfl, bound⟩
      obtain ⟨m, rfl⟩ : ∃ k, m = k + 1 := ⟨m - 1, by omega⟩
      refine ((inner k (Nat.le_refl k) 0).within bound (Nat.le_refl k)).within_bind ?_
      intro first s' ran _
      have shorter := takes 0 s first s' ran
      have within := TokenSource.direct_within (α := α) lexer s'.size
      refine Alike.within (k := s'.size) ?_ (Nat.le_refl _) (by omega)
      refine (within.skipIf ",").bind fun more => ?_
      split
      · refine Alike.bind ?_ fun others => .pure _
        exact ih m s'.size (by omega) (by omega) fun j small => inner j (by omega)
      · exact (within.expect closing).bind fun _ => .pure _

end Lists

section Empty

variable {s : ParseState} {r : Lexer.Reading α} (empty : r.token.kind = .operator "")
variable (read : s.ahead lexer .operator = .ok r)

include empty read

/-- Where an operator is ahead, the text does not end. -/
theorem endsProgram_of_empty {op : BinaryOp} {ends : Bool} {s' : ParseState}
    (h : endsProgram (.direct (α := α) lexer) op s = .ok ends s') : ends = false := by
  unfold endsProgram at h
  split at h
  · obtain ⟨token, middle, looked, rest⟩ := Run.bind_eq_ok h
    obtain ⟨r', ahead, rfl, rfl⟩ := TokenSource.direct_peek_ok.mp looked
    cases rest
    refine Bool.eq_false_iff.mpr fun ends => ?_
    have finished : Lexer.Lexes lexer .operator s.operators.keys s.interner s.cursor _ :=
      (Lexer.lexes_of_next ahead).ends (isEnd_iff.mp ends) rfl
    cases read.symm.trans finished.next
    rw [isEnd_iff.mp ends] at empty
    cases empty
  · cases h
    rfl

theorem skipIf_of_empty {closing : String} {skips : Bool} {s' : ParseState}
    (h : skipIf (.direct (α := α) lexer) closing s = .ok skips s') (taken : skips = true) :
    closing = "" ∧ s' = s.consume r := by
  subst taken
  rw [skipIf, Run.bind_ok (TokenSource.direct_peek_ok.mpr ⟨r, read, rfl, rfl⟩)] at h
  split at h
  next found =>
    have taken := TokenSource.direct_next_ok.mpr ⟨r, ParseState.ahead_again read, rfl, rfl⟩
    rw [Run.bind_ok taken] at h
    cases h
    have kind := isOperator_iff.mp found
    rw [empty] at kind
    cases kind
    exact ⟨rfl, rfl⟩
  · cases h

variable (still : s.consume r = s)

include still

/-- Behind a postfix operator of empty name it is read once more, until the steps are used up. -/
theorem extend_of_postfixed {operator : Operator} {op : UnaryOp} {power : Power}
    (known : s.operators.find? "" = some operator)
    (holds : operator.infixRule = some (.postfixed op))
    (tight : power < s.operators.powerOf r.token.kind) (steps : Nat) (left : Expr α) :
    extend (.direct lexer) steps power left s =
      .error ⟨.unexpectedToken "", r.token.location⟩ s := by
  induction steps generalizing left with
  | zero => rw [extend_zero_of_tight read tight, unexpected_operator empty, still]
  | succ steps ih =>
      rw [extend_succ_of_tight read tight, still]
      dsimp only
      have formed (list : String → ParseM ParseState (List (Expr α)))
          (inner : Power → ParseM ParseState (Expr α)) :
          infixForm (.direct lexer) list inner r.token left s = .ok (.unary op left) s :=
        infixForm_known empty known holds left
      rw [Run.bind_ok (formed _ _), ih]

/-- What is no name is not called. -/
theorem extend_of_bracketed {operator : Operator} {closing : String} {bracket : Bracket}
    {power : Power} (known : s.operators.find? "" = some operator)
    (holds : operator.infixRule = some (.composite closing bracket))
    (tight : power < s.operators.powerOf r.token.kind) (steps : Nat) {left : Expr α}
    (unnamed : ∀ head, left ≠ .symbol head) :
    extend (.direct lexer) (steps + 1) power left s =
      .error ⟨.invalidOperand .compositeHead left.text, r.token.location⟩ s := by
  rw [extend_succ_of_tight read tight, still]
  dsimp only
  refine Run.bind_error ?_
  rw [infixForm_known empty known holds]
  cases left with
  | symbol head => exact absurd rfl (unnamed head)
  | _ => rfl

/-- What is formed with the operator of empty name takes some of the text. Where it does not, the
operator is read once more, and every parse ends with the same error. -/
theorem infixForm_of_empty {list : String → ParseM ParseState (List (Expr α))}
    {e : Power → ParseM ParseState (Expr α)} {left result : Expr α} {s' : ParseState}
    (takes : ∀ power, Shortens (e power)) (listed : ∀ closing, Shortens (list closing))
    (formed : infixForm (.direct lexer) list e r.token left s = .ok result s') :
    s'.size < s.size ∨ s' = s ∧ ∀ power, power < s.operators.powerOf r.token.kind →
      ∃ error, ∀ steps, extend (.direct lexer) (steps + 1) power result s = .error error s := by
  obtain ⟨name, operator, rule, kind, known, holds, applied⟩ := infixForm_ok formed
  rw [empty] at kind
  obtain rfl : "" = name := by injection kind
  cases rule with
  | binary op rightAssociative =>
      obtain ⟨ends, middle, looked, rest⟩ := Run.bind_eq_ok applied
      obtain rfl := endsProgram_of_empty empty read looked
      have advances : Advances (endsProgram (.direct (α := α) lexer) op) :=
        .of_alike fun n => (TokenSource.direct_within lexer n).endsProgram op
      have later := (takes (rightPower operator.leftPower rightAssociative)).bind
        (fun right => Advances.pure (Expr.binary op left right)) middle result s' rest
      exact .inl (Nat.lt_of_lt_of_le later (advances s false middle looked))
  | postfixed op =>
      cases applied
      refine .inr ⟨rfl, fun power tight => ⟨⟨.unexpectedToken "", r.token.location⟩, ?_⟩⟩
      intro steps
      exact extend_of_postfixed empty read still known holds tight (steps + 1) _
  | apply head =>
      exact .inl ((takes operator.leftPower).bind (fun _ => .pure _) s result s' applied)
  | composite closing bracket =>
      dsimp only [applyInfix] at applied
      split at applied
      next head =>
        obtain ⟨skips, middle, skipped, rest⟩ := Run.bind_eq_ok applied
        split at rest
        next taken =>
          obtain ⟨_, same⟩ := skipIf_of_empty empty read skipped taken
          cases rest
          refine .inr ⟨same.trans still, fun power tight => ⟨⟨.invalidOperand .compositeHead
            (Expr.composite head [] bracket : Expr α).text, r.token.location⟩, fun steps => ?_⟩⟩
          exact extend_of_bracketed empty read still known holds tight steps
            fun _ absurd => by cases absurd
        · have later := (listed closing).bind (fun _ => Advances.pure _) middle result s' rest
          exact .inl (Nat.lt_of_lt_of_le later (advances_skipIf closing s skips middle skipped))
      · cases applied
  | branch =>
      refine .inl ((takes 0).bind (fun condition => ?_) s result s' applied)
      refine (advances_expect "else").bind fun _ => ?_
      exact (takes operator.leftPower).advances.bind fun _ => .pure _

end Empty

section Longer

variable {n m k : Nat}

theorem expression_within_succ
    (inner : ∀ j, j < k → ∀ power, Alike (Within j)
      (expression (.direct (α := α) lexer) n power) (expression (.direct lexer) m power))
    (extended : ∀ j, j < k → ∀ power left, Alike (Within j)
      (extend (.direct (α := α) lexer) n power left) (extend (.direct lexer) m power left))
    (power : Power) :
    Alike (Within k) (expression (.direct (α := α) lexer) (n + 1) power)
      (expression (.direct lexer) (m + 1) power) := by
  rintro s _ ⟨rfl, bound⟩
  cases read : s.ahead (α := α) lexer .operand with
  | error error =>
      have failed := TokenSource.direct_next_error read
      rw [expression_succ, expression_succ, Run.bind_error failed, Run.bind_error failed]
      exact ⟨rfl, rfl, bound⟩
  | ok r =>
      have consumed := TokenSource.direct_next_ok.mpr ⟨r, read, rfl, rfl⟩
      have advanced := ParseState.size_consume_le read
      rcases ParseState.progress read with ends | empty | less
      · rw [expression_succ, expression_succ, Run.bind_ok consumed, Run.bind_ok consumed,
          prefixForm_end ends, prefixForm_end ends, unexpected_bind, unexpected_bind]
        exact (TokenSource.Simulates.unexpected r.token).within advanced bound
      · obtain ⟨error, fails⟩ := expression_of_empty empty read
        rw [fails, fails]
        exact ⟨rfl, rfl, Nat.le_trans advanced bound⟩
      · have small : (s.consume r).size < k := Nat.lt_of_lt_of_le less bound
        have within := TokenSource.direct_within (α := α) lexer (s.consume r).size
        rw [expression_succ, expression_succ, Run.bind_ok consumed, Run.bind_ok consumed]
        exact ((within.prefixForm (inner _ small) r.token).bind (extended _ small power)).within
          (Nat.le_refl _) (Nat.le_of_lt small)

theorem extend_within_succ (more : n ≤ m) (some : 0 < n)
    (inner : ∀ j, j ≤ k → ∀ power, Alike (Within j)
      (expression (.direct (α := α) lexer) n power) (expression (.direct lexer) m power))
    (listed : ∀ j, j ≤ k → ∀ closing, Alike (Within j)
      (arguments (.direct lexer) (expression (.direct (α := α) lexer) n) closing n)
      (arguments (.direct lexer) (expression (.direct lexer) m) closing m))
    (extended : ∀ j, j < k → ∀ power left, Alike (Within j)
      (extend (.direct (α := α) lexer) n power left) (extend (.direct lexer) m power left))
    (power : Power) (left : Expr α) :
    Alike (Within k) (extend (.direct (α := α) lexer) (n + 1) power left)
      (extend (.direct lexer) (m + 1) power left) := by
  rintro s _ ⟨rfl, bound⟩
  cases read : s.ahead (α := α) lexer .operator with
  | error error =>
      have failed := leftPower_error read
      rw [extend_succ, extend_succ, Run.bind_error failed, Run.bind_error failed]
      exact ⟨rfl, rfl, bound⟩
  | ok r =>
      by_cases loose : s.operators.powerOf r.token.kind ≤ power
      · rw [extend_of_loose read loose, extend_of_loose read loose]
        exact ⟨rfl, rfl, bound⟩
      · have tight := Nat.lt_of_not_le loose
        have advanced := ParseState.size_consume_le read
        rw [extend_succ_of_tight read tight, extend_succ_of_tight read tight]
        rcases ParseState.progress read with ends | empty | less
        · exact absurd ends (OperatorTable.not_end_of_lt tight)
        · have within := TokenSource.direct_within (α := α) lexer k
          refine ((within.infixForm (inner k (Nat.le_refl k)) (listed k (Nat.le_refl k)) r.token
            left).within (Nat.le_trans advanced bound) (Nat.le_refl k)).within_bind ?_
          intro result s' formed _
          have again := ParseState.ahead_of_empty read empty
          rcases infixForm_of_empty empty again rfl (shortens_expression n)
            (fun closing => shortens_arguments (shortens_expression n) closing n) formed with
            fewer | ⟨rfl, stuck⟩
          · have small : s'.size < k := by omega
            exact (extended s'.size small power result).within (Nat.le_refl _) (Nat.le_of_lt small)
          · obtain ⟨error, fails⟩ := stuck power tight
            obtain ⟨n, rfl⟩ := Nat.exists_eq_succ_of_ne_zero (Nat.ne_of_gt some)
            obtain ⟨m, rfl⟩ : ∃ k, m = k + 1 := ⟨m - 1, by omega⟩
            rw [fails, fails]
            exact ⟨rfl, rfl, Nat.le_trans advanced bound⟩
        · have small : (s.consume r).size < k := Nat.lt_of_lt_of_le less bound
          have within := TokenSource.direct_within (α := α) lexer (s.consume r).size
          have least := Nat.le_of_lt small
          exact ((within.infixForm (inner _ least) (listed _ least) r.token left).bind
            (extended _ small power)).within (Nat.le_refl _) least

end Longer

/-- With two steps for every character that is left, and one more for an expression, two for what
extends it, more steps change nothing. -/
theorem expression_and_extend_within (n : Nat) : ∀ m k, n ≤ m →
    (2 * k + 1 ≤ n → ∀ power, Alike (Within k) (expression (.direct (α := α) lexer) n power)
      (expression (.direct lexer) m power)) ∧
    (2 * k + 2 ≤ n → ∀ power left, Alike (Within k)
      (extend (.direct (α := α) lexer) n power left) (extend (.direct lexer) m power left)) := by
  induction n with
  | zero =>
      intro m k _
      exact ⟨fun _ => by omega, fun _ => by omega⟩
  | succ n ih =>
      intro m k more
      obtain ⟨m, rfl⟩ : ∃ k, m = k + 1 := ⟨m - 1, by omega⟩
      have longer := Nat.le_of_succ_le_succ more
      constructor
      · intro enough
        exact expression_within_succ (fun j small => (ih m j longer).1 (by omega))
          fun j small => (ih m j longer).2 (by omega)
      · intro enough
        have inner : ∀ j, j ≤ k → _ := fun j small => (ih m j longer).1 (by omega)
        refine extend_within_succ longer (by omega) inner (fun j small closing => ?_)
          fun j small => (ih m j longer).2 (by omega)
        exact arguments_within (shortens_expression n) m j longer (by omega)
          fun i less => inner i (Nat.le_trans less small)

end Parser

namespace Direct

variable [Scalar α] [Numeral α]

/-- An expression, with as many steps as a parse of what is left can take. -/
def expression (lexer : Lexer) (power : Power) : ParseM ParseState (Expr α) := fun state =>
  Parser.expression (.direct lexer) (Parser.stepsFor state.cursor.rest) power state

/-- The infix forms behind an operand. -/
def extend (lexer : Lexer) (power : Power) (left : Expr α) : ParseM ParseState (Expr α) :=
  fun state => Parser.extend (.direct lexer) (Parser.stepsFor state.cursor.rest) power left state

/-- The arguments in front of a closing bracket. -/
def arguments (lexer : Lexer) (closing : String) : ParseM ParseState (List (Expr α)) :=
  fun state => Parser.arguments (.direct lexer) (expression lexer) closing (state.size + 1) state

variable {lexer : Lexer}

theorem expression_steps {steps : Nat} {state : ParseState}
    (enough : Parser.stepsFor state.cursor.rest ≤ steps) (power : Power) :
    Parser.expression (.direct (α := α) lexer) steps power state = expression lexer power state :=
  (((Parser.expression_and_extend_within _ steps state.size enough).1 (Nat.le_succ _)
    power).eq_of (Nat.le_refl _)).symm

theorem extend_steps {steps : Nat} {state : ParseState}
    (enough : Parser.stepsFor state.cursor.rest ≤ steps) (power : Power) (left : Expr α) :
    Parser.extend (.direct lexer) steps power left state = extend lexer power left state :=
  (((Parser.expression_and_extend_within _ steps state.size enough).2 (Nat.le_refl _)
    power left).eq_of (Nat.le_refl _)).symm

theorem stepsFor_le {n steps : Nat} {state : ParseState} (bound : state.size ≤ n)
    (enough : 2 * n + 2 ≤ steps) : Parser.stepsFor state.cursor.rest ≤ steps := by
  change 2 * state.size + 2 ≤ steps
  omega

theorem expression_within (n : Nat) (power : Power) :
    Alike (Within n) (expression (α := α) lexer power) (expression lexer power) := by
  have within := TokenSource.direct_within (α := α) lexer n
  rintro s _ ⟨rfl, bound⟩
  rw [← expression_steps (stepsFor_le bound (Nat.le_refl _))]
  exact (within.expression_and_extend (2 * n + 2)).1 power s s ⟨rfl, bound⟩

theorem expression_alike {n steps : Nat} (enough : 2 * n + 2 ≤ steps) (power : Power) :
    Alike (Within n) (Parser.expression (.direct (α := α) lexer) steps power)
      (expression lexer power) := by
  rintro s _ ⟨rfl, bound⟩
  rw [expression_steps (stepsFor_le bound enough)]
  exact expression_within n power s s ⟨rfl, bound⟩

theorem extend_alike {n steps : Nat} (enough : 2 * n + 2 ≤ steps) (power : Power)
    (left : Expr α) :
    Alike (Within n) (Parser.extend (.direct lexer) steps power left)
      (extend lexer power left) := by
  have within := TokenSource.direct_within (α := α) lexer n
  rintro s _ ⟨rfl, bound⟩
  rw [← extend_steps (stepsFor_le bound enough)]
  exact (within.expression_and_extend steps).2 power left s s ⟨rfl, bound⟩

theorem shortens_expression (power : Power) : Parser.Shortens (expression (α := α) lexer power) :=
  fun _ _ _ => Parser.expression_size

theorem arguments_steps {rounds : Nat} {state : ParseState} (enough : state.size < rounds)
    (closing : String) :
    Parser.arguments (.direct lexer) (expression (α := α) lexer) closing rounds state =
      arguments lexer closing state :=
  ((Parser.arguments_within shortens_expression rounds state.size enough (Nat.lt_succ_self _)
    fun j _ => expression_within j).eq_of (Nat.le_refl _)).symm

theorem arguments_alike {n steps : Nat} (enough : 2 * n + 2 ≤ steps) (closing : String) :
    Alike (Within n) (Parser.arguments (.direct lexer)
        (Parser.expression (.direct (α := α) lexer) steps) closing steps)
      (arguments lexer closing) := by
  have within := TokenSource.direct_within (α := α) lexer n
  rintro s _ ⟨rfl, bound⟩
  have more : s.size < steps := by omega
  rw [← arguments_steps more]
  exact within.arguments (expression_alike enough) closing steps s s ⟨rfl, bound⟩

/-- An expression is a prefix form that is extended. -/
theorem expression_eq (power : Power) (state : ParseState) :
    expression (α := α) lexer power state = (do
      let token ← (TokenSource.direct lexer).next .operand
      let left ← Parser.prefixForm (.direct lexer) (expression lexer) token
      extend lexer power left) state := by
  have within := TokenSource.direct_within (α := α) lexer state.size
  rw [← expression_steps (Nat.le_succ _), Parser.expression_succ]
  refine @Alike.eq_of _ _ (fun s => s.size ≤ state.size) _ _ ?_ state (Nat.le_refl _)
  refine (within.next .operand).bind fun token => ?_
  exact (within.prefixForm (expression_alike (Nat.le_refl _)) token).bind
    (extend_alike (Nat.le_refl _) power)

/-- States with the same operand ahead are before the same expression. -/
theorem expression_congr {state other : ParseState} {r : Lexer.Reading α}
    (same : state.operators = other.operators) (read : state.ahead lexer .operand = .ok r)
    (read' : other.ahead lexer .operand = .ok r) (power : Power) :
    expression (α := α) lexer power state = expression lexer power other := by
  have consumed : state.consume r = other.consume r := by
    unfold ParseState.consume
    rw [same]
  rw [expression_eq, expression_eq,
    Run.bind_ok (TokenSource.direct_next_ok.mpr ⟨r, read, rfl, rfl⟩),
    Run.bind_ok (TokenSource.direct_next_ok.mpr ⟨r, read', rfl, rfl⟩), consumed]

/-- Arguments are expressions with commas between them. -/
theorem arguments_eq (closing : String) (state : ParseState) :
    arguments (α := α) lexer closing state = (do
      let first ← expression lexer 0
      if ← Parser.skipIf (.direct (α := α) lexer) "," then
        let rest ← arguments lexer closing
        return first :: rest
      else
        Parser.expect (.direct (α := α) lexer) closing
        return [first]) state := by
  refine ((expression_within state.size 0).within (Nat.le_refl _) (Nat.le_refl _)).within_bind ?_
    |>.eq
  intro first s' ran _
  have shorter := shortens_expression 0 state first s' ran
  have within := TokenSource.direct_within (α := α) lexer s'.size
  refine Alike.within (k := s'.size) ?_ (Nat.le_refl _) (Nat.le_of_lt shorter)
  refine (within.skipIf ",").bind fun more => ?_
  split
  · refine Alike.bind ?_ fun others => .pure _
    -- the members that are left are no more than the rounds that are left
    rintro t _ ⟨rfl, bound⟩
    rw [← arguments_steps (Nat.lt_of_le_of_lt bound shorter)]
    exact within.arguments (expression_within s'.size) closing state.size t t ⟨rfl, bound⟩
  · exact (within.expect closing).bind fun _ => .pure _

/-- An operand is extended as long as what follows binds tighter. -/
theorem extend_eq (power : Power) (left : Expr α) (state : ParseState) :
    extend lexer power left state = (do
      if power < (← Parser.leftPower (.direct (α := α) lexer)) then
        let token ← (TokenSource.direct lexer).next .operator
        let left ← Parser.infixForm (.direct lexer) (arguments lexer) (expression lexer) token left
        extend lexer power left
      else return left) state := by
  have within := TokenSource.direct_within (α := α) lexer state.size
  rw [← extend_steps (Nat.le_succ _), Parser.extend_succ]
  refine @Alike.eq_of _ _ (fun s => s.size ≤ state.size) _ _ ?_ state (Nat.le_refl _)
  refine within.leftPower.bind fun found => ?_
  split
  · refine (within.next .operator).bind fun token => ?_
    exact (within.infixForm (expression_alike (Nat.le_refl _)) (arguments_alike (Nat.le_refl _))
      token left).bind (extend_alike (Nat.le_refl _) power)
  · exact .pure left

section Reading

variable {state : ParseState} {r : Lexer.Reading α} (read : state.ahead lexer .operator = .ok r)
variable {power : Power}

include read

theorem extend_of_loose (loose : state.operators.powerOf r.token.kind ≤ power) (left : Expr α) :
    extend lexer power left state = .ok left { state with interner := r.interner } :=
  Parser.extend_of_loose read loose left

theorem extend_of_tight (tight : power < state.operators.powerOf r.token.kind) (left : Expr α) :
    extend lexer power left state = (do
      let left ← Parser.infixForm (.direct lexer) (arguments lexer) (expression lexer) r.token left
      extend lexer power left) (state.consume r) := by
  have consumed := TokenSource.direct_next_ok.mpr ⟨r, ParseState.ahead_again read, rfl, rfl⟩
  rw [extend_eq, Run.bind_ok (Parser.leftPower_eq read), if_pos tight, Run.bind_ok consumed]
  rfl

/-- Looking ahead changes nothing about what follows. -/
theorem extend_look (left : Expr α) :
    extend lexer power left { state with interner := r.interner } =
      extend lexer power left state := by
  have again := ParseState.ahead_again read
  by_cases loose : state.operators.powerOf r.token.kind ≤ power
  · rw [extend_of_loose read loose]
    exact extend_of_loose again loose left
  · have tight := Nat.lt_of_not_le loose
    rw [extend_of_tight read tight]
    exact extend_of_tight again tight left

end Reading

/-- A whole text is an expression with the end of the text behind it. -/
theorem program_ok {steps : Nat} {state after : ParseState}
    (enough : Parser.stepsFor state.cursor.rest ≤ steps) {result : Expr α} :
    Parser.program (.direct lexer) steps state = .ok result after ↔ ∃ token middle,
      expression lexer 0 state = .ok result middle ∧
        (TokenSource.direct (α := α) lexer).next .operator middle = .ok token after ∧
          token.kind = .endOfInput := by
  rw [← expression_steps enough]
  constructor
  · exact Parser.program_ok
  · rintro ⟨token, middle, parsed, read, ends⟩
    rw [Parser.program_eq, Run.bind_ok parsed, Run.bind_ok read, if_pos (Parser.isEnd_iff.mpr ends)]
    rfl

end Direct

namespace Grammar

variable [Scalar α] [Numeral α] {grammar : Grammar} {interner : Interner} {source : String}

/-- A parse is an expression with the end of the text behind it. -/
theorem parseDirect_eq : grammar.parseDirect (α := α) interner source = (do
      let result ← Direct.expression grammar.lexer 0
      let token ← (TokenSource.direct (α := α) grammar.lexer).next .operator
      if Parser.isEnd token then return result else Parser.unexpected token)
    (grammar.start interner source) :=
  have enough : Parser.stepsFor (grammar.start interner source).cursor.rest ≤
    Parser.stepsFor source.toList := Nat.le_refl _
  Run.bind_congr (Direct.expression_steps enough 0)

theorem parseDirect_ok {result : Expr α} {after : ParseState} :
    grammar.parseDirect interner source = .ok result after ↔ ∃ token middle,
      Direct.expression grammar.lexer 0 (grammar.start interner source) = .ok result middle ∧
        (TokenSource.direct (α := α) grammar.lexer).next .operator middle = .ok token after ∧
          token.kind = .endOfInput :=
  have enough : Parser.stepsFor (grammar.start interner source).cursor.rest ≤
    Parser.stepsFor source.toList := Nat.le_refl _
  Direct.program_ok enough

end Grammar

end IntervalCalc
