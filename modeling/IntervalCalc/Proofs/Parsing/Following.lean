import IntervalCalc.Proofs.Parsing.Grounded
import IntervalCalc.Proofs.Parsing.Steps

/-!
Parses that follow others. Where one source follows another one as long as the tokens come as they
are foreseen, every parse that succeeds is followed by one with the same value. The places of tokens
may differ, and with them what errors say, so nothing is said of parses that fail. The parse that
follows may have more steps.

The source that follows may also have more tokens. Where the first one ends, an operand that is
complete there has to be complete in the other one as well, whatever comes next.
-/

namespace IntervalCalc

variable {α β γ σ τ : Type}

/-- Tokens that differ at most in their places. -/
def SameKind (token token' : Token α) : Prop :=
  token'.kind = token.kind

/-- Tokens of which both are the end of the text, or none. -/
def SameEnd (token token' : Token α) : Prop :=
  token'.kind = .endOfInput ↔ token.kind = .endOfInput

section

variable (alive : σ → Prop) (R : σ → τ → Prop)

/-- A step that another one follows: where it succeeds and leads to a state that is alive, the other
succeeds as well, with a value that fits. -/
structure Followed (V : β → β → Prop) (x : ParseM σ β) (y : ParseM τ β) : Prop where
  lives {s s' : σ} {value : β} : x s = .ok value s' → alive s' → alive s
  follows {s s' : σ} {t : τ} {value : β} : R s t → x s = .ok value s' → alive s' →
    ∃ value' t', y t = .ok value' t' ∧ V value value' ∧ R s' t'

/-- A step that another one follows from one state on. -/
structure FollowedAt (V : β → β → Prop) (s : σ) (x : ParseM σ β) (y : ParseM τ β) : Prop where
  lives {s' : σ} {value : β} : x s = .ok value s' → alive s' → alive s
  follows {s' : σ} {t : τ} {value : β} : R s t → x s = .ok value s' → alive s' →
    ∃ value' t', y t = .ok value' t' ∧ V value value' ∧ R s' t'

/-- A source that another one follows. -/
structure TokenSource.FollowedBy (S : TokenSource α σ) (T : TokenSource α τ) : Prop where
  operators {s : σ} {t : τ} : R s t → (S.view s).operators = (T.view t).operators
  next (position : Position) : Followed alive R SameKind (S.next position) (T.next position)
  operator : Followed alive R SameKind (S.peek .operator) (T.peek .operator)
  operand : Followed alive R SameEnd (S.peek .operand) (T.peek .operand)
  named {s s' : σ} {position : Position} {token : Token α} :
    S.next position s = .ok token s' → token.Named
  declare {name : String} (fixity : Fixity) (power : Power) : isIdentifier name.toList →
    Followed alive R Eq (S.declare name fixity power) (T.declare name fixity power)

/-- Nothing but the end of the text comes next. -/
def TokenSource.Over (S : TokenSource α σ) (s : σ) : Prop :=
  ∀ {position token s'}, S.next position s = .ok token s' → token.kind = .endOfInput

/-- Whatever was looked at last was the end of the text. -/
def TokenSource.Ended (S : TokenSource α σ) (s : σ) : Prop :=
  ∀ {before token}, S.peek .operator before = .ok token s → token.kind = .endOfInput

/-- A token is a separator. -/
def TokenSource.Separates (S : TokenSource α σ) (s : σ) (token : Token α) : Prop :=
  ∃ name operator rule, token.kind = .operator name ∧
    (S.view s).operators.find? name = some operator ∧ operator.infixRule = some rule ∧
    rule.isSeparator

/-- An operand is complete where the first source ends: with some steps left, the other one leaves
it as it is, whatever power it is held with. -/
def TokenSource.StopsAt [Scalar α] [Numeral α] (T : TokenSource α τ) (extra : Nat) (s : σ) (t : τ) :
    Prop :=
  ∀ steps, extra ≤ steps → ∀ power left,
    ∃ t', Parser.extend T steps power left t = .ok left t' ∧ R s t'

/-- A source that another one follows up to the end, where the other one may go on. Behind a
separator both end, or none. -/
structure TokenSource.OutlastedBy [Scalar α] [Numeral α] (S : TokenSource α σ) (T : TokenSource α τ)
    (extra : Nat) : Prop where
  operators {s : σ} {t : τ} : R s t → (S.view s).operators = (T.view t).operators
  lives_next {s s' : σ} {position : Position} {token : Token α} :
    S.next position s = .ok token s' → alive s' → alive s
  lives_peek {s s' : σ} {position : Position} {token : Token α} :
    S.peek position s = .ok token s' → alive s' → alive s
  next {s s' : σ} {t : τ} {position : Position} {token : Token α} : R s t →
    S.next position s = .ok token s' → alive s' →
      (∃ token' t', T.next position t = .ok token' t' ∧ SameKind token token' ∧ R s' t') ∨
        (token.kind = .endOfInput ∧ S.Ended s)
  operator {s s' : σ} {t : τ} {token : Token α} : R s t → S.peek .operator s = .ok token s' →
    alive s' → (∃ token' t', T.peek .operator t = .ok token' t' ∧ SameKind token token' ∧ R s' t') ∨
      (token.kind = .endOfInput ∧ S.Over s' ∧ T.StopsAt R extra s' t)
  operand {s s' : σ} {t : τ} {token : Token α} : R s t → S.peek .operand s = .ok token s' →
    alive s' → ∃ token' t', T.peek .operand t = .ok token' t' ∧ R s' t'
  separator {s s' : σ} {token : Token α} : S.next .operator s = .ok token s' →
    S.Separates s' token → FollowedAt alive R SameEnd s' (S.peek .operand) (T.peek .operand)
  named {s s' : σ} {position : Position} {token : Token α} :
    S.next position s = .ok token s' → token.Named
  declare {name : String} (fixity : Fixity) (power : Power) : isIdentifier name.toList →
    Followed alive R Eq (S.declare name fixity power) (T.declare name fixity power)

end

namespace Followed

variable {alive : σ → Prop} {R : σ → τ → Prop} {V : β → β → Prop} {W : γ → γ → Prop}
variable {x : ParseM σ β} {y : ParseM τ β} {f : β → ParseM σ γ} {g : β → ParseM τ γ}

theorem at_state (h : Followed alive R V x y) (s : σ) : FollowedAt alive R V s x y :=
  ⟨h.lives, h.follows⟩

theorem of_at (h : ∀ s, FollowedAt alive R V s x y) : Followed alive R V x y :=
  ⟨fun ran => (h _).lives ran, fun related ran => (h _).follows related ran⟩

end Followed

namespace FollowedAt

variable {alive : σ → Prop} {R : σ → τ → Prop} {V : β → β → Prop} {W : γ → γ → Prop}
variable {x : ParseM σ β} {y : ParseM τ β} {f : β → ParseM σ γ} {g : β → ParseM τ γ} {s : σ}

/-- What follows a step may be known to begin with a value that the step gives, and in the state
that it leaves. -/
theorem bind (same : ∀ value, V value value) (h : FollowedAt alive R V s x y)
    (h' : ∀ value s' value', x s = .ok value s' → V value value' →
      FollowedAt alive R W s' (f value) (g value')) :
    FollowedAt alive R W s (x >>= f) (y >>= g) := by
  constructor
  · intro s' result ran living
    obtain ⟨value, middle, first, second⟩ := Run.bind_eq_ok ran
    exact h.lives first ((h' value middle value first (same value)).lives second living)
  · intro s' t result related ran living
    obtain ⟨value, middle, first, second⟩ := Run.bind_eq_ok ran
    have before := (h' value middle value first (same value)).lives second living
    obtain ⟨value', t', followed, fits, related'⟩ := h.follows related first before
    obtain ⟨result', t'', followed', fits', related''⟩ :=
      (h' value middle value' first fits).follows related' second living
    exact ⟨result', t'', (Run.bind_ok followed).trans followed', fits', related''⟩

/-- Whatever follows a step that fails. -/
theorem fails (failing : ∀ s' value, x s ≠ .ok value s') : FollowedAt alive R V s x y :=
  ⟨fun ran => absurd ran (failing _ _), fun _ ran => absurd ran (failing _ _)⟩

end FollowedAt

namespace Followed

variable {alive : σ → Prop} {R : σ → τ → Prop} {V : β → β → Prop} {W : γ → γ → Prop}
variable {x : ParseM σ β} {y : ParseM τ β} {f : β → ParseM σ γ} {g : β → ParseM τ γ}

theorem bind_of (same : ∀ value, V value value) (h : Followed alive R V x y)
    (h' : ∀ s value s' value', x s = .ok value s' → V value value' →
      Followed alive R W (f value) (g value')) :
    Followed alive R W (x >>= f) (y >>= g) :=
  of_at fun s => (h.at_state s).bind same fun value s' value' ran fits =>
    (h' s value s' value' ran fits).at_state s'

theorem bind (h : Followed alive R Eq x y)
    (h' : ∀ value, Followed alive R W (f value) (g value)) :
    Followed alive R W (x >>= f) (y >>= g) := by
  refine h.bind_of (fun _ => rfl) ?_
  rintro s value s' _ _ rfl
  exact h' value

theorem pure (value : β) : Followed alive R Eq (Pure.pure value) (Pure.pure value) := by
  constructor
  · intro s s' _ ran living
    cases ran
    exact living
  · intro s s' t _ related ran _
    cases ran
    exact ⟨value, t, rfl, rfl, related⟩

theorem fails (failing : ∀ s s' value, x s ≠ .ok value s') : Followed alive R V x y :=
  of_at fun s => .fails (failing s)

theorem throw (error : SyntaxError) : Followed alive R V (MonadExcept.throw error) y :=
  fails fun _ _ _ absurd => by cases absurd

end Followed

namespace SameKind

variable {token token' : Token α}

theorem refl (token : Token α) : SameKind token token :=
  rfl

theorem isOperator (same : SameKind token token') (name : String) :
    Parser.isOperator token' name = Parser.isOperator token name :=
  Parser.isOperator_congr same name

theorem isEnd (same : SameKind token token') : Parser.isEnd token' = Parser.isEnd token := by
  unfold Parser.isEnd
  rw [same]

end SameKind

namespace SameEnd

variable {token token' : Token α}

theorem refl (token : Token α) : SameEnd token token :=
  Iff.rfl

theorem isEnd (same : SameEnd token token') : Parser.isEnd token' = Parser.isEnd token := by
  rw [Bool.eq_iff_iff, Parser.isEnd_iff, Parser.isEnd_iff]
  exact same

end SameEnd

section Parts

variable [Numeral α] {alive : σ → Prop} {R : σ → τ → Prop}

theorem unexpected_followed {V : β → β → Prop} (token : Token α) {y : ParseM τ β} :
    Followed alive R V (Parser.unexpected token) y :=
  .fails fun _ _ _ => Parser.unexpected_ne_ok

theorem parameters_followed (location location' : Location) (list : List (Expr α)) :
    Followed alive R Eq (Parser.parameters location list) (Parser.parameters location' list) := by
  induction list with
  | nil => exact .pure []
  | cons first rest ih =>
      cases first with
      | symbol symbol => exact ih.bind fun rest => .pure _
      | _ => exact .throw _

theorem declaredName_followed {token token' : Token α} (same : SameKind token token') :
    Followed alive R Eq (Parser.declaredName token) (Parser.declaredName token') := by
  unfold Parser.declaredName
  rw [same]
  split
  · exact .pure _
  · split
    · exact .pure _
    · exact .throw _
  · exact .throw _

end Parts

namespace TokenSource.OutlastedBy

variable [Scalar α] [Numeral α]
variable {alive : σ → Prop} {R : σ → τ → Prop} {S : TokenSource α σ} {T : TokenSource α τ}
variable {extra : Nat}

section Tokens

variable {V : β → β → Prop} {f : Token α → ParseM σ β} {g : Token α → ParseM τ β}

/-- A token that is used is not the end of the text. -/
theorem next_bind_at (h : S.OutlastedBy alive R T extra) {position : Position} {s : σ}
    (ends : ∀ token s' s'' value, token.kind = .endOfInput → S.Ended s → f token s' ≠ .ok value s'')
    (later : ∀ token s' token', S.next position s = .ok token s' → SameKind token token' →
      FollowedAt alive R V s' (f token) (g token')) :
    FollowedAt alive R V s (S.next position >>= f) (T.next position >>= g) := by
  constructor
  · intro s' value ran living
    obtain ⟨token, middle, first, second⟩ := Run.bind_eq_ok ran
    exact h.lives_next first ((later token middle token first rfl).lives second living)
  · intro s' t value related ran living
    obtain ⟨token, middle, first, second⟩ := Run.bind_eq_ok ran
    have before := (later token middle token first rfl).lives second living
    rcases h.next related first before with ⟨token', t', followed, same, related'⟩ | ⟨last, ended⟩
    · obtain ⟨value', t'', followed', fits, related''⟩ :=
        (later token middle token' first same).follows related' second living
      exact ⟨value', t'', (Run.bind_ok followed).trans followed', fits, related''⟩
    · exact absurd second (ends token middle s' value last ended)

theorem next_bind (h : S.OutlastedBy alive R T extra) {position : Position}
    (ends : ∀ token s s' value, token.kind = .endOfInput → f token s ≠ .ok value s')
    (later : ∀ token token', token.Named → SameKind token token' →
      Followed alive R V (f token) (g token')) :
    Followed alive R V (S.next position >>= f) (T.next position >>= g) :=
  .of_at fun _ => h.next_bind_at (fun token s s' value last _ => ends token s s' value last)
    fun token s' token' read same => (later token token' (h.named read) same).at_state s'

/-- What is looked at is alike, or the first source is over. -/
theorem peek_bind (h : S.OutlastedBy alive R T extra) {y : ParseM τ β}
    (shape : y = T.peek .operator >>= g)
    (words : ∀ s token s' token', S.peek .operator s = .ok token s' → SameKind token token' →
      FollowedAt alive R V s' (f token) (g token'))
    (last : ∀ s s' t token value, token.kind = .endOfInput → S.Over s → T.StopsAt R extra s t →
      f token s = .ok value s' → alive s' →
        ∃ value' t', y t = .ok value' t' ∧ V value value' ∧ R s' t') :
    Followed alive R V (S.peek .operator >>= f) y := by
  constructor
  · intro s s' value ran living
    obtain ⟨token, middle, first, second⟩ := Run.bind_eq_ok ran
    exact h.lives_peek first ((words s token middle token first rfl).lives second living)
  · intro s s' t value related ran living
    obtain ⟨token, middle, first, second⟩ := Run.bind_eq_ok ran
    have before := (words s token middle token first rfl).lives second living
    rcases h.operator related first before with
      ⟨token', t', followed, same, related'⟩ | ⟨ends, spent, stops⟩
    · obtain ⟨value', t'', followed', fits, related''⟩ :=
        (words s token middle token' first same).follows related' second living
      rw [shape]
      exact ⟨value', t'', (Run.bind_ok followed).trans followed', fits, related''⟩
    · exact last middle s' t token value ends spent stops second living

theorem operator? (h : S.OutlastedBy alive R T extra) (name : String) :
    Followed alive R Eq (Parser.operator? S name) (Parser.operator? T name) := by
  constructor
  · intro s s' _ ran living
    cases ran
    exact living
  · intro s s' t _ related ran _
    cases ran
    refine ⟨_, t, rfl, ?_, related⟩
    rw [h.operators related]

/-- Where the first source is over, nothing that goes on without the operator succeeds. -/
theorem skipIf_bind (h : S.OutlastedBy alive R T extra) {name : String} {f : Bool → ParseM σ β}
    {g : Bool → ParseM τ β} (spent : ∀ s s' value, S.Over s → f false s ≠ .ok value s')
    (later : ∀ found, Followed alive R V (f found) (g found)) :
    Followed alive R V (Parser.skipIf S name >>= f) (Parser.skipIf T name >>= g) := by
  unfold Parser.skipIf
  rw [bind_assoc, bind_assoc]
  refine h.peek_bind rfl ?words ?last
  case words =>
    intro s token s' token' peeked same
    rw [same.isOperator]
    split
    next matched =>
      rw [bind_assoc, bind_assoc]
      refine h.next_bind_at (fun _ _ _ _ _ ended => ?_) fun _ _ _ _ _ => (later true).at_state _
      have last := ended peeked
      rw [Parser.isOperator_iff.mp matched] at last
      cases last
    · exact (later false).at_state s'
  case last =>
    intro s s' t token value ends finished _ ran _
    have missed : Parser.isOperator token name = false := by
      unfold Parser.isOperator
      rw [ends]
    rw [missed] at ran
    exact absurd ran (spent s s' value finished)

theorem endsProgram_at (h : S.OutlastedBy alive R T extra) {s s' : σ} {token : Token α}
    (read : S.next .operator s = .ok token s') {op : BinaryOp}
    (separates : op = .sequence → S.Separates s' token) :
    FollowedAt alive R Eq s' (Parser.endsProgram S op) (Parser.endsProgram T op) := by
  unfold Parser.endsProgram
  split
  next sequence =>
    refine (h.separator read (separates sequence)).bind SameEnd.refl fun _ _ _ _ same => ?_
    rw [same.isEnd]
    exact (Followed.pure _).at_state _
  · exact (Followed.pure false).at_state _

theorem expect (h : S.OutlastedBy alive R T extra) (name : String) :
    Followed alive R Eq (Parser.expect S name) (Parser.expect T name) := by
  refine h.next_bind ?_ fun token token' _ same => ?_
  · intro token s s' value ends ran
    unfold Parser.isOperator at ran
    rw [ends] at ran
    cases ran
  · rw [same.isOperator]
    split
    · exact .pure ()
    · exact .throw _

omit [Scalar α] in
theorem expect_over {name : String} {f : Unit → ParseM σ β} {s s' : σ} {value : β}
    (spent : S.Over s) : (Parser.expect S name >>= f) s ≠ .ok value s' := by
  intro ran
  obtain ⟨_, middle, expected, _⟩ := Run.bind_eq_ok ran
  obtain ⟨token, after, read, matched⟩ := Run.bind_eq_ok expected
  unfold Parser.isOperator at matched
  rw [spent read] at matched
  cases matched

end Tokens

/-- A step fails where the source is over. -/
def Starved (S : TokenSource α σ) (x : ParseM σ β) : Prop :=
  ∀ s s' value, S.Over s → x s ≠ .ok value s'

omit [Scalar α] in
theorem starved_arguments {E : Power → ParseM σ (Expr α)} (starved : Starved S (E 0))
    (closing : String) (n : Nat) : Starved S (Parser.arguments S E closing n) := by
  intro s s' value spent ran
  cases n with
  | zero =>
      obtain ⟨token, after, _, failed⟩ := Run.bind_eq_ok ran
      exact Parser.unexpected_ne_ok failed
  | succ n =>
      obtain ⟨first, after, began, _⟩ := Run.bind_eq_ok ran
      exact starved s after first spent began

section Forms

variable {E : Power → ParseM σ (Expr α)} {e : Power → ParseM τ (Expr α)}
variable (h : S.OutlastedBy alive R T extra)
variable (inner : ∀ power, Followed alive R Eq (E power) (e power))

include h inner

theorem arguments (closing : String) (n k : Nat) : Followed alive R Eq
    (Parser.arguments S E closing n) (Parser.arguments T e closing (k + n)) := by
  induction n with
  | zero =>
      refine .fails fun s s' value ran => ?_
      obtain ⟨token, middle, _, failed⟩ := Run.bind_eq_ok ran
      exact Parser.unexpected_ne_ok failed
  | succ n ih =>
      refine (inner 0).bind fun first => h.skipIf_bind ?_ fun more => ?_
      · intro s s' value spent
        exact expect_over spent
      · split
        · exact ih.bind fun rest => .pure _
        · exact (h.expect closing).bind fun _ => .pure _

theorem definition (location location' : Location) :
    Followed alive R Eq (Parser.definition S E location) (Parser.definition T e location') := by
  refine (inner 0).bind fun signature => ?_
  split
  · refine (parameters_followed _ _ _).bind fun names => (h.expect "is").bind fun _ => ?_
    exact (inner 0).bind fun body => (h.expect "end").bind fun _ => .pure _
  · exact .throw _

theorem declaredPower :
    Followed alive R Eq (Parser.declaredPower S E) (Parser.declaredPower T e) := by
  have looked : Followed alive R (fun _ _ => True) (S.peek .operand) (T.peek .operand) := by
    refine ⟨h.lives_peek, fun related read living => ?_⟩
    obtain ⟨token', t', followed, related'⟩ := h.operand related read living
    exact ⟨token', t', followed, trivial, related'⟩
  refine looked.bind_of (fun _ => trivial) fun _ _ _ _ _ _ => (inner 1000).bind fun operand => ?_
  split
  · split
    · exact .pure _
    · exact .throw _
  · exact .throw _

theorem declaration (fixity : Fixity) :
    Followed alive R Eq (Parser.declaration S E fixity) (Parser.declaration T e fixity) := by
  refine h.next_bind ?_ fun token token' named same => ?_
  · intro token s s' value ends ran
    obtain ⟨name, middle, found, _⟩ := Run.bind_eq_ok ran
    unfold Parser.declaredName at found
    rw [ends] at found
    cases found
  · refine (declaredName_followed same).bind_of (fun _ => rfl) ?_
    rintro s name s' _ found rfl
    have identifier := Parser.isIdentifier_of_declaredName named found
    exact (h.declaredPower inner).bind fun power =>
      (h.declare fixity power identifier).bind fun _ => .pure _

theorem applyPrefix (location location' : Location) (rule : PrefixRule) : Followed alive R Eq
    (Parser.applyPrefix S E location rule) (Parser.applyPrefix T e location' rule) := by
  cases rule with
  | unary op power => exact (inner power).bind fun _ => .pure _
  | apply head power => exact (inner power).bind fun _ => .pure _
  | group closing => exact (inner 0).bind fun _ => (h.expect closing).bind fun _ => .pure _
  | branch =>
      refine (inner 0).bind fun condition => (h.expect "then").bind fun _ => ?_
      refine (inner 0).bind fun consequence => (h.expect "else").bind fun _ => ?_
      exact (inner 0).bind fun alternative => (h.expect "end").bind fun _ => .pure _
  | function => exact h.definition inner location location'
  | declare fixity => exact h.declaration inner fixity

theorem prefixForm {token token' : Token α} (same : SameKind token token') :
    Followed alive R Eq (Parser.prefixForm S E token) (Parser.prefixForm T e token') := by
  unfold Parser.prefixForm
  rw [same]
  split
  · exact .pure _
  · exact unexpected_followed token
  · refine (h.operator? _).bind fun operator => ?_
    split
    · exact unexpected_followed token
    · exact h.applyPrefix inner token.location token'.location _

variable {L : String → ParseM σ (List (Expr α))} {l : String → ParseM τ (List (Expr α))}
variable (listed : ∀ closing, Followed alive R Eq (L closing) (l closing))
variable (starved : ∀ closing, Starved S (L closing))

include listed starved

theorem applyInfix_at {s s' : σ} {token : Token α} (read : S.next .operator s = .ok token s')
    (location location' : Location) (power : Power) (left : Expr α) {rule : InfixRule}
    (separates : rule.isSeparator → S.Separates s' token) :
    FollowedAt alive R Eq s' (Parser.applyInfix S L E location power left rule)
      (Parser.applyInfix T l e location' power left rule) := by
  cases rule with
  | binary op rightAssociative =>
      refine (h.endsProgram_at read fun sequence => separates ?_).bind (fun _ => rfl) ?_
      · rw [sequence]
        rfl
      · rintro ends s' _ _ rfl
        split
        · exact (Followed.pure left).at_state _
        · exact ((inner _).bind fun _ => .pure _).at_state _
  | postfixed op => exact (Followed.pure _).at_state _
  | apply head => exact ((inner power).bind fun _ => .pure _).at_state _
  | composite closing bracket =>
      dsimp only [Parser.applyInfix]
      split
      · refine Followed.at_state (h.skipIf_bind ?_ fun empty => ?_) _
        · intro s s' value spent ran
          obtain ⟨members, middle, ran, _⟩ := Run.bind_eq_ok ran
          exact starved closing s middle members spent ran
        · split
          · exact .pure _
          · exact (listed closing).bind fun _ => .pure _
      · exact (Followed.throw _).at_state _
  | branch =>
      refine Followed.at_state
        ((inner 0).bind fun condition => (h.expect "else").bind fun _ => ?_) _
      exact (inner power).bind fun alternative => .pure _

theorem infixForm_at {s s' : σ} {token token' : Token α}
    (read : S.next .operator s = .ok token s') (same : SameKind token token') (left : Expr α) :
    FollowedAt alive R Eq s' (Parser.infixForm S L E token left)
      (Parser.infixForm T l e token' left) := by
  unfold Parser.infixForm
  rw [same]
  split
  next name kind =>
    refine ((h.operator? name).at_state s').bind (fun _ => rfl) ?_
    rintro found _ _ ran rfl
    cases ran
    split
    next operator known =>
      split
      next rule holds =>
        exact h.applyInfix_at inner listed starved read token.location token'.location _ left
          fun separator => ⟨name, operator, rule, kind, known, holds, separator⟩
      · exact (unexpected_followed token).at_state _
    · exact (unexpected_followed token).at_state _
  · exact (unexpected_followed token).at_state _

end Forms

theorem starved_expression (n : Nat) (power : Power) : Starved S (Parser.expression S n power) := by
  intro s s' value spent ran
  cases n with
  | zero =>
      obtain ⟨token, middle, _, failed⟩ := Run.bind_eq_ok ran
      exact Parser.unexpected_ne_ok failed
  | succ n =>
      obtain ⟨token, middle, read, rest⟩ := Run.bind_eq_ok ran
      obtain ⟨left, between, formed, _⟩ := Run.bind_eq_ok rest
      rw [Parser.prefixForm_end (spent read)] at formed
      exact Parser.unexpected_ne_ok formed

/-- An operand is extended alike, or it is complete because the first source is over. -/
theorem leftPower_bind (h : S.OutlastedBy alive R T extra) {V : β → β → Prop}
    {f : Power → ParseM σ β} {g : Power → ParseM τ β} {y : ParseM τ β}
    (shape : y = Parser.leftPower T >>= g)
    (later : ∀ found, Followed alive R V (f found) (g found))
    (last : ∀ s s' t value, T.StopsAt R extra s t → f 0 s = .ok value s' → alive s' →
      ∃ value' t', y t = .ok value' t' ∧ V value value' ∧ R s' t') :
    Followed alive R V (Parser.leftPower S >>= f) y := by
  unfold Parser.leftPower at shape ⊢
  rw [bind_assoc] at shape ⊢
  refine h.peek_bind shape ?words ?last
  case words =>
    intro s token s' token' _ same
    refine Followed.at_state ?_ s'
    rw [same]
    split
    · exact ((h.operator? _).bind fun _ => .pure _).bind later
    · exact (Followed.pure 0).bind later
  case last =>
    intro s s' t token value ends _ stops ran living
    rw [ends] at ran
    exact last s s' t value stops ran living

/-- Without steps only what is not extended succeeds, so more of them change nothing. -/
theorem expression_and_extend (h : S.OutlastedBy alive R T extra) {k : Nat} (enough : extra ≤ k)
    (n : Nat) :
    (∀ power, Followed alive R Eq (Parser.expression S n power)
        (Parser.expression T (k + n) power)) ∧
      ∀ power left, Followed alive R Eq (Parser.extend S n power left)
        (Parser.extend T (k + n) power left) := by
  have ends {position : Position} {y : ParseM τ (Expr α)} :
      Followed alive R Eq (do Parser.unexpected (← S.next position)) y := by
    refine .fails fun s s' value ran => ?_
    obtain ⟨token, middle, _, failed⟩ := Run.bind_eq_ok ran
    exact Parser.unexpected_ne_ok failed
  -- where the first source is over, the operand is left as it is
  have complete {n : Nat} {power : Power} {left : Expr α} {s s' : σ} {t : τ} {value : Expr α}
      (stops : T.StopsAt R extra s t) (ran : (pure left : ParseM σ (Expr α)) s = .ok value s') :
      ∃ value' t', Parser.extend T (k + n) power left t = .ok value' t' ∧ value = value' ∧
        R s' t' := by
    cases ran
    obtain ⟨t', stopped, related⟩ := stops (k + n) (Nat.le_add_right_of_le enough) power left
    exact ⟨left, t', stopped, rfl, related⟩
  induction n with
  | zero =>
      refine ⟨fun power => ends, fun power left => ?_⟩
      have loose : ∀ found, Followed alive R Eq
          (if power < found then do Parser.unexpected (← S.next .operator) else return left)
          (if power < found then do Parser.unexpected (← T.next .operator) else return left) := by
        intro found
        split
        · exact ends
        · exact .pure left
      cases k with
      | zero => exact h.leftPower_bind rfl loose fun s s' t value stops ran _ => complete stops ran
      | succ k =>
          refine h.leftPower_bind rfl (fun found => ?_) fun s s' t value stops ran _ =>
            complete stops ran
          split
          · exact ends
          · exact .pure left
  | succ n ih =>
      obtain ⟨inner, later⟩ := ih
      constructor
      · intro power
        refine h.next_bind ?_ fun token token' _ same => ?_
        · intro token s s' value last ran
          obtain ⟨left, between, formed, _⟩ := Run.bind_eq_ok ran
          rw [Parser.prefixForm_end last] at formed
          exact Parser.unexpected_ne_ok formed
        · exact (h.prefixForm inner same).bind fun left => later power left
      · intro power left
        refine h.leftPower_bind rfl (fun found => ?_) fun s s' t value stops ran _ =>
          complete stops ran
        split
        · refine .of_at fun s => h.next_bind_at ?_ fun token s' token' read same => ?_
          · intro token s s' value last _ ran
            obtain ⟨next, between, formed, _⟩ := Run.bind_eq_ok ran
            rw [Parser.infixForm_end last] at formed
            exact Parser.unexpected_ne_ok formed
          · have starved := fun closing => starved_arguments (starved_expression (S := S) n 0) closing n
            refine (h.infixForm_at inner (fun closing => h.arguments inner closing n k) starved read
              same left).bind (fun _ => rfl) ?_
            rintro next _ _ _ rfl
            exact (later power next).at_state _
        · exact .pure left

end TokenSource.OutlastedBy

namespace TokenSource.FollowedBy

variable [Scalar α] [Numeral α]
variable {alive : σ → Prop} {R : σ → τ → Prop} {S : TokenSource α σ} {T : TokenSource α τ}

/-- A source that another one follows to the very end. -/
theorem outlasted (h : S.FollowedBy alive R T) : S.OutlastedBy alive R T 0 where
  operators related := h.operators related
  lives_next read := (h.next _).lives read
  lives_peek {_ _ position _} read := by
    cases position with
    | operand => exact h.operand.lives read
    | operator => exact h.operator.lives read
  next related read living := .inl ((h.next _).follows related read living)
  operator related read living := .inl (h.operator.follows related read living)
  operand related read living := by
    obtain ⟨token', t', followed, _, related'⟩ := h.operand.follows related read living
    exact ⟨token', t', followed, related'⟩
  separator _ _ := h.operand.at_state _
  named read := h.named read
  declare fixity power identifier := h.declare fixity power identifier

theorem program (h : S.FollowedBy alive R T) (n k : Nat) :
    Followed alive R Eq (Parser.program S n) (Parser.program T (k + n)) := by
  refine ((h.outlasted.expression_and_extend (Nat.zero_le k) n).1 0).bind fun result => ?_
  refine (h.next .operator).bind_of SameKind.refl fun _ token _ token' _ same => ?_
  rw [same.isEnd]
  split
  · exact .pure result
  · exact unexpected_followed token

end TokenSource.FollowedBy

end IntervalCalc
