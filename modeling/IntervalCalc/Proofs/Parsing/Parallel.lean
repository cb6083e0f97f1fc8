import IntervalCalc.Proofs.Lexing.Continuing
import IntervalCalc.Proofs.Parsing.Grounded
import IntervalCalc.Proofs.Parsing.History
import IntervalCalc.Proofs.Parsing.Steps

/-!
Texts that go on. Two parses are parallel if they stand at the same place of a text and of a
longer one, where nothing follows or a separator on a line of its own. Both have the same tokens
ahead, up to the end of the first text.
-/

namespace IntervalCalc

variable {α : Type}

/-- What follows a text, and the left power of its first token: nothing, or a separator between
two line feeds. -/
inductive Joint : List Char → Power → Prop
  | nothing : Joint [] 0
  | separator (more : List Char) : Joint ('\n' :: ';' :: '\n' :: more) 10

/-- The same state, before a text with something behind it. -/
structure Parallel (tail : List Char) (s t : ParseState) : Prop where
  operators : s.operators = t.operators
  interner : s.interner = t.interner
  continues : s.cursor.Continues tail t.cursor
  grounded : s.operators.Grounded

variable [Scalar α] [Numeral α] {tail : List Char} {w : Power}

/-- Nothing but blanks is left of the text. -/
def AtEnd (α : Type) [Scalar α] [Numeral α] (s : ParseState) : Prop :=
  ∃ r : Lexer.Reading α, s.ahead Lexer.standard .operator = .ok r ∧ r.token.kind = .endOfInput

theorem Joint.onNewLine (h : Joint tail w) : OnNewLine tail := by
  cases h with
  | nothing => intro c absurd; cases absurd
  | separator more => intro c first; cases first; rfl

theorem Joint.solid (h : Joint tail w) : blankLength false (tail.drop 1) = 0 := by
  cases h <;> rfl

namespace AtEnd

variable {s : ParseState}

theorem ahead (h : AtEnd α s) (position : Position) : ∃ r : Lexer.Reading α,
    s.ahead Lexer.standard position = .ok r ∧ r.token.kind = .endOfInput ∧
      r.interner = s.interner := by
  obtain ⟨r, read, ends⟩ := h
  exact ⟨_, ((Lexer.lexes_of_next read).ends ends rfl).next, ends, rfl⟩

theorem of_ahead {position : Position} {r : Lexer.Reading α}
    (read : s.ahead Lexer.standard position = .ok r) (ends : r.token.kind = .endOfInput) :
    AtEnd α s :=
  ⟨_, ((Lexer.lexes_of_next read).ends ends rfl).next, ends⟩

theorem look (h : AtEnd α s) (interner : Interner) : AtEnd α { s with interner } := by
  obtain ⟨r, read, ends⟩ := h
  exact ⟨_, ((Lexer.lexes_of_next read).ends ends rfl).next, ends⟩

theorem declare (h : AtEnd α s) {name : String} (identifier : isIdentifier name.toList)
    (fixity : Fixity) (power : Power) : AtEnd α (s.declare name fixity power) := by
  obtain ⟨r, read, ends⟩ := h
  have same := @OperatorTable.symbols_insert s.operators name identifier
    (declaredOperator fixity (s.interner.intern name).1 power)
  exact ⟨_, ((Lexer.lexes_of_next read).ends ends same.symm).next, ends⟩

theorem consume {position : Position} {r : Lexer.Reading α}
    (read : s.ahead Lexer.standard position = .ok r) (ends : r.token.kind = .endOfInput) :
    AtEnd α (s.consume r) := by
  have finished : r.cursor.rest = [] := by
    rcases (Lexer.lexes_of_next read).progress with ⟨_, finished, _⟩ | ⟨spelled, _⟩
    · exact finished
    · rw [ends] at spelled
      exact spelled.elim
  exact ⟨_, (Lexer.Lexes.atEnd finished).next, rfl⟩

end AtEnd

namespace Parallel

variable {s t : ParseState} {position : Position} {r : Lexer.Reading α}

theorem look (h : Parallel tail s t) (interner : Interner) :
    Parallel tail { s with interner } { t with interner } :=
  ⟨h.operators, rfl, h.continues, h.grounded⟩

theorem declare (h : Parallel tail s t) {name : String} (identifier : isIdentifier name.toList)
    (fixity : Fixity) {power : Power} (above : 10 < power) :
    Parallel tail (s.declare name fixity power) (t.declare name fixity power) := by
  refine ⟨?_, ?_, h.continues, h.grounded.declare identifier fixity _ above⟩
  · unfold ParseState.declare
    rw [h.operators, h.interner]
  · change (s.interner.intern name).2 = (t.interner.intern name).2
    rw [h.interner]

theorem ahead (joint : Joint tail w) (h : Parallel tail s t)
    (read : s.ahead Lexer.standard position = .ok r) (more : r.token.kind ≠ .endOfInput) :
    ∃ r' : Lexer.Reading α, t.ahead Lexer.standard position = .ok r' ∧
      r'.token.kind = r.token.kind ∧ r'.interner = r.interner ∧
      Parallel tail (s.consume r) (t.consume r') := by
  have inline := Lexer.inline_of_symbols h.grounded.symbols
  obtain ⟨r', read', kind, interner, continues⟩ :=
    Lexer.next_append joint.onNewLine.breaks (inline.apart joint.onNewLine) h.continues read more
  refine ⟨r', ?_, kind, interner, h.operators, interner.symm, continues, h.grounded⟩
  rw [ParseState.ahead, ← h.operators, ← h.interner]
  exact read'

/-- Where the first text ends, the other one ends or has a separator. -/
theorem ahead_end (joint : Joint tail w) (h : Parallel tail s t) (ends : AtEnd α s)
    (position : Position) : ∃ r' : Lexer.Reading α, t.ahead Lexer.standard position = .ok r' ∧
      r'.interner = t.interner ∧ (tail = [] → r'.token.kind = .endOfInput) ∧
      ∀ more, tail = '\n' :: ';' :: '\n' :: more →
        r'.token.kind = .operator ";" ∧ r'.cursor.rest = '\n' :: more := by
  have symbols := h.grounded.symbols
  have inline := Lexer.inline_of_symbols symbols
  obtain ⟨r, read, finished, _⟩ := ends.ahead position
  obtain ⟨later, place, same⟩ := Lexer.next_append_end joint.onNewLine joint.solid inline
    h.continues read finished
  rw [ParseState.ahead, ← h.operators, ← h.interner, same]
  cases joint with
  | nothing =>
      have nothing : later.rest = [] := place.elim id id
      exact ⟨_, (Lexer.Lexes.atEnd nothing).next, rfl, fun _ => rfl,
        fun _ absurd => (by cases absurd)⟩
  | separator more =>
      -- the line feed before the separator is still ahead, or a last comment has taken it in
      have separated : ∃ before : Cursor, before.rest = ';' :: '\n' :: more ∧
          Lexer.standard.next (α := α) position s.operators.keys s.interner later =
            Lexer.standard.next position s.operators.keys s.interner before := by
        rcases place with place | place
        · refine ⟨later.advance 1, ?_, Lexer.next_isBlank symbols (by decide) place⟩
          rw [Cursor.rest_advance, place]
          rfl
        · exact ⟨later, place, rfl⟩
      obtain ⟨before, text, same⟩ := separated
      refine ⟨_, same.trans (Lexer.next_separator symbols text), rfl,
        fun absurd => (by cases absurd), fun rest equal => ⟨rfl, ?_⟩⟩
      cases equal
      change (before.advance 1).rest = _
      rw [Cursor.rest_advance, text]
      rfl

/-- What is looked at is the same in both, but that the end of the first text may be a separator. -/
theorem seen (joint : Joint tail w) (h : Parallel tail s t)
    (read : s.ahead Lexer.standard position = .ok r) :
    ∃ r' : Lexer.Reading α, t.ahead Lexer.standard position = .ok r' ∧
      Parallel tail { s with interner := r.interner } { t with interner := r'.interner } ∧
      (r'.token.kind = r.token.kind ∨
        r.token.kind = .endOfInput ∧ tail ≠ [] ∧ r'.token.kind = .operator ";") := by
  by_cases ends : r.token.kind = .endOfInput
  · obtain ⟨r', read', interner, nothing, separated⟩ :=
      h.ahead_end joint (AtEnd.of_ahead read ends) position
    obtain ⟨r'', again, _, same⟩ := (AtEnd.of_ahead read ends).ahead position
    cases read.symm.trans again
    refine ⟨r', read', ?_, ?_⟩
    · rw [interner, same, h.interner]
      exact h.look t.interner
    · cases joint with
      | nothing => exact .inl ((nothing rfl).trans ends.symm)
      | separator more => exact .inr ⟨ends, List.cons_ne_nil _ _, (separated more rfl).1⟩
  · obtain ⟨r', read', kind, interner, parallel⟩ := h.ahead joint read ends
    refine ⟨r', read', ?_, .inl kind⟩
    rw [interner]
    exact h.look r.interner

theorem seen_same (h : Parallel [] s t) (read : s.ahead Lexer.standard position = .ok r) :
    ∃ r' : Lexer.Reading α, t.ahead Lexer.standard position = .ok r' ∧
      Parallel [] { s with interner := r.interner } { t with interner := r'.interner } ∧
      r'.token.kind = r.token.kind := by
  obtain ⟨r', read', looked, same⟩ := h.seen .nothing read
  exact ⟨r', read', looked, same.resolve_right fun more => more.2.1 rfl⟩

end Parallel

/-- The source of the longer text. -/
abbrev plain (α : Type) [Scalar α] [Numeral α] : TokenSource α ParseState :=
  .direct Lexer.standard

/-- The source of the first text, with a log. -/
abbrev noted (α : Type) [Scalar α] [Numeral α] : TokenSource α (ParseState × Log α) :=
  (plain α).logged

/-- A parse that the longer text would not follow: it declares an operator that does not hold
against a separator, or ends with a separator where the longer text has more. -/
def Doomed (tail : List Char) (s : ParseState × Log α) : Prop :=
  ¬ s.2.DeclaresAbove 10 ∨
    (tail ≠ [] ∧ AtEnd α s.1 ∧ s.2.words.getLast? = some (.operator ";"))

theorem doomed_persists (tail : List Char) :
    (noted α).Simulates (plain α) fun s t => s.1 = t ∧ Doomed tail s := by
  refine TokenSource.direct_logged_simulates ?_ ?_ ?_
  · rintro s log position r (low | ⟨more, ends, last⟩) read
    · exact .inl fun above => low above.of_append
    · obtain ⟨r', read', finished, _⟩ := ends.ahead position
      cases read.symm.trans read'
      refine .inr ⟨more, AtEnd.consume read finished, ?_⟩
      rw [Log.words_append, Event.word?_of_end finished, Option.toList_none, List.append_nil]
      exact last
  · rintro s log position r (low | ⟨more, ends, last⟩) read
    · exact .inl low
    · exact .inr ⟨more, ends.look _, last⟩
  · rintro s log name fixity power (low | ⟨more, ends, last⟩) identifier
    · exact .inl fun above => low above.of_append
    · refine .inr ⟨more, ends.declare identifier fixity power, ?_⟩
      rw [Log.words_append, Event.word?, Option.toList_none, List.append_nil]
      exact last

section Carrying

variable {β γ : Type}

/-- A step over the first text that the longer text follows, if it leads to a state of a kind. -/
structure Carries (tail : List Char) (kind : ParseState → Prop) (x : ParseM (ParseState × Log α) β)
    (y : ParseM ParseState β) : Prop where
  persists {s s' : ParseState × Log α} {value : β} : Doomed tail s → x s = .ok value s' →
    Doomed tail s'
  carries {s s' : ParseState × Log α} {t : ParseState} {value : β} : Parallel tail s.1 t →
    x s = .ok value s' → ¬ Doomed tail s' → kind s'.1 →
      ∃ t', y t = .ok value t' ∧ Parallel tail s'.1 t'

def Anywhere : ParseState → Prop := fun _ => True

/-- A place before the end of the text. -/
def Inside (α : Type) [Scalar α] [Numeral α] : ParseState → Prop := fun s => ¬ AtEnd α s

namespace Carries

variable {kind kind' : ParseState → Prop} {x : ParseM (ParseState × Log α) β}
variable {y : ParseM ParseState β} {f : β → ParseM (ParseState × Log α) γ}
variable {g : β → ParseM ParseState γ}

/-- What follows a step tells where the step has led. -/
theorem bind_of (h : Carries tail kind x y)
    (place : ∀ value s s' result, f value s = .ok result s' → kind s.1)
    (h' : ∀ value s s', x s = .ok value s' → Carries tail kind' (f value) (g value)) :
    Carries tail kind' (x >>= f) (y >>= g) := by
  constructor
  · intro s s' result doomed ran
    obtain ⟨value, middle, first, second⟩ := Run.bind_eq_ok ran
    exact (h' value s middle first).persists (h.persists doomed first) second
  · intro s s' t result parallel ran alive there
    obtain ⟨value, middle, first, second⟩ := Run.bind_eq_ok ran
    have next := h' value s middle first
    have alive' : ¬ Doomed tail middle := fun doomed => alive (next.persists doomed second)
    obtain ⟨t', followed, parallel'⟩ := h.carries parallel first alive' (place _ _ _ _ second)
    obtain ⟨t'', followed', parallel''⟩ := next.carries parallel' second alive there
    exact ⟨t'', (Run.bind_ok followed).trans followed', parallel''⟩

theorem bind (h : Carries tail Anywhere x y) (h' : ∀ value, Carries tail kind (f value) (g value)) :
    Carries tail kind (x >>= f) (y >>= g) :=
  h.bind_of (fun _ _ _ _ _ => trivial) fun value _ _ _ => h' value

theorem pure (value : β) :
    Carries (α := α) tail kind (Pure.pure value) (Pure.pure value) := by
  constructor
  · intro s s' _ doomed ran
    cases ran
    exact doomed
  · intro s s' t _ parallel ran _ _
    cases ran
    exact ⟨t, rfl, parallel⟩

/-- A failure needs no follower. -/
theorem fails (failing : ∀ s s' value, x s ≠ .ok value s') : Carries tail kind x y :=
  ⟨fun _ ran => absurd ran (failing _ _ _), fun _ ran => absurd ran (failing _ _ _)⟩

theorem throw (error : SyntaxError) :
    Carries (α := α) (β := β) tail kind (MonadExcept.throw error) y :=
  fails fun _ _ _ absurd => by cases absurd

/-- Tokens differ in their places, but the rest of the parse does not look at these. -/
theorem next_bind (joint : Joint tail w) {position : Position}
    {f : Token α → ParseM (ParseState × Log α) β} {g : Token α → ParseM ParseState β}
    (ends : ∀ token s s' value, token.kind = .endOfInput → f token s ≠ .ok value s')
    (later : ∀ token token', token'.kind = token.kind → token.Named →
      Carries tail kind (f token) (g token')) :
    Carries tail kind ((noted α).next position >>= f) ((plain α).next position >>= g) := by
  constructor
  · intro s s' value doomed ran
    obtain ⟨token, middle, first, second⟩ := Run.bind_eq_ok ran
    have persisted := ((doomed_persists tail).next position).keeps doomed first
    obtain ⟨r, read, rfl, _⟩ := TokenSource.direct_logged_next_ok.mp first
    exact (later r.token r.token rfl (ParseState.named_of_ahead read)).persists persisted second
  · intro s s' t value parallel ran alive there
    obtain ⟨token, middle, first, second⟩ := Run.bind_eq_ok ran
    obtain ⟨r, read, rfl, rfl⟩ := TokenSource.direct_logged_next_ok.mp first
    have more : r.token.kind ≠ .endOfInput := fun finished => ends _ _ _ _ finished second
    obtain ⟨r', read', kind, _, parallel'⟩ := parallel.ahead joint read more
    have next := later r.token r'.token kind (ParseState.named_of_ahead read)
    obtain ⟨t', followed, parallel''⟩ := next.carries parallel' second alive there
    refine ⟨t', ?_, parallel''⟩
    rw [Run.bind_ok (TokenSource.direct_next_ok.mpr ⟨r', read', rfl, rfl⟩)]
    exact followed

theorem peek_bind (joint : Joint tail w) {position : Position}
    {f : Token α → ParseM (ParseState × Log α) β} {g : Token α → ParseM ParseState β}
    (later : ∀ token token', Carries tail kind (f token) (g token')) :
    Carries tail kind ((noted α).peek position >>= f) ((plain α).peek position >>= g) := by
  constructor
  · intro s s' value doomed ran
    obtain ⟨token, middle, first, second⟩ := Run.bind_eq_ok ran
    exact (later token token).persists (((doomed_persists tail).peek position).keeps doomed first)
      second
  · intro s s' t value parallel ran alive there
    obtain ⟨token, middle, first, second⟩ := Run.bind_eq_ok ran
    obtain ⟨r, read, rfl, rfl⟩ := TokenSource.direct_logged_peek_ok.mp first
    obtain ⟨r', read', parallel', _⟩ := parallel.seen joint read
    obtain ⟨t', followed, parallel''⟩ :=
      (later r.token r'.token).carries parallel' second alive there
    refine ⟨t', ?_, parallel''⟩
    rw [Run.bind_ok (TokenSource.direct_peek_ok.mpr ⟨r', read', rfl, rfl⟩)]
    exact followed

end Carries

end Carrying

end IntervalCalc
