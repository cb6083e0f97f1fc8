import IntervalCalc.Proofs.Lexing.Trailing
import IntervalCalc.Proofs.Parsing.Following
import IntervalCalc.Proofs.Parsing.Parallel

/-!
Parses of a text that has something behind it in the same line. What such a parse reads up to the
end of the shorter text is what the parse of that text reads, and there it stands before what is
behind.
-/

namespace IntervalCalc

variable {α : Type} [Scalar α] [Numeral α]

/-- The same state, before a text and before the same with something behind it; or what is behind
has been read, if there are steps for that, and both texts are at their ends. The operators are
among those of a kind. -/
structure Along (α : Type) [Scalar α] [Numeral α] (kind : OperatorTable → Prop) (tail : List Char)
    (extra : Nat) (s t : ParseState) : Prop where
  known : kind s.operators
  operators : s.operators = t.operators
  interner : s.interner = t.interner
  place : (s.cursor.Continues tail t.cursor ∧ ¬ EndsInComment s.cursor.rest) ∨
    (extra ≠ 0 ∧ AtEnd α s ∧ AtEnd α t)

/-- The parse has come to the end of the text behind one of some operators. -/
def Spent (separators : String → Prop) (s : ParseState × Log α) : Prop :=
  AtEnd α s.1 ∧ ∃ name, separators name ∧ s.2.words.getLast? = some (.operator name)

/-- Nothing was declared where nothing may be, and the text does not end with a separator. -/
def Lasting (declares : Prop) (separators : String → Prop) (s : ParseState × Log α) : Prop :=
  (declares ∨ s.2.DeclaresNothing) ∧ ¬ Spent separators s

section Lasting

variable {declares : Prop} {separators : String → Prop} {s : ParseState} {log : Log α}
variable {position : Position} {r : Lexer.Reading α}

theorem Lasting.of_consume (read : s.ahead Lexer.standard position = .ok r)
    (h : Lasting declares separators
      (s.consume r, log ++ [.consumed position s.operators s.interner r])) :
    Lasting declares separators (s, log) := by
  refine ⟨h.1.imp id fun nothing => nothing.of_prefix (List.prefix_append log _), ?_⟩
  rintro ⟨ends, name, separator, last⟩
  obtain ⟨r', read', finished, _⟩ := ends.ahead position
  cases read.symm.trans read'
  refine h.2 ⟨AtEnd.consume read finished, name, separator, ?_⟩
  rw [Log.words_append, Event.word?_of_end finished, Option.toList_none, List.append_nil]
  exact last

theorem Lasting.of_look {interner : Interner}
    (h : Lasting declares separators ({ s with interner }, log)) :
    Lasting declares separators (s, log) :=
  ⟨h.1, fun ⟨ends, last⟩ => h.2 ⟨ends.look interner, last⟩⟩

theorem Lasting.of_declare {name : String} {fixity : Fixity} {power : Power}
    (identifier : isIdentifier name.toList)
    (h : Lasting declares separators
      (s.declare name fixity power, log ++ [.declared name fixity power])) :
    Lasting declares separators (s, log) := by
  refine ⟨h.1.imp id fun nothing => nothing.of_prefix (List.prefix_append log _), ?_⟩
  rintro ⟨ends, name', separator, last⟩
  refine h.2 ⟨ends.declare identifier fixity power, name', separator, ?_⟩
  rw [Log.words_append, Event.word?, Option.toList_none, List.append_nil]
  exact last

end Lasting

/-- What a text may have behind it for parses with some operators: a parse of the text comes to no
other word, and with some steps left an operand that ends with the text stays as it is. -/
structure Addition (α : Type) [Scalar α] [Numeral α] (kind : OperatorTable → Prop)
    (declares : Prop) (separators : String → Prop) (tail : List Char) (extra : Nat) : Prop where
  breaks : Breaks tail
  apart {operators : OperatorTable} : kind operators → Vocabulary.Apart operators.keys tail
  declare {operators : OperatorTable} {name : String} : declares → kind operators →
    isIdentifier name.toList → ∀ fixity head power,
      kind (operators.insert name (declaredOperator fixity head power))
  separator {operators : OperatorTable} {name : String} {operator : Operator} {rule : InfixRule} :
    kind operators → operators.find? name = some operator → operator.infixRule = some rule →
      rule.isSeparator → separators name
  reads {s t : ParseState} : Along α kind tail extra s t → AtEnd α s → ∀ position,
    ∃ r : Lexer.Reading α, t.ahead Lexer.standard position = .ok r ∧ r.interner = t.interner
  stops {s t : ParseState} : Along α kind tail extra s t → AtEnd α s →
    (plain α).StopsAt (Along α kind tail extra) extra s t

namespace Along

variable {kind : OperatorTable → Prop} {declares : Prop} {separators : String → Prop}
variable {tail : List Char} {extra : Nat} {s t : ParseState} {position : Position}
variable {r : Lexer.Reading α}

theorem look (h : Along α kind tail extra s t) (interner : Interner) :
    Along α kind tail extra { s with interner } { t with interner } :=
  ⟨h.known, h.operators, rfl, h.place.imp id fun ⟨steps, ends, ends'⟩ =>
    ⟨steps, ends.look interner, ends'.look interner⟩⟩

/-- A word of the text is one of the longer text. -/
theorem ahead (behind : Addition α kind declares separators tail extra)
    (h : Along α kind tail extra s t)
    (read : s.ahead Lexer.standard position = .ok r) (more : r.token.kind ≠ .endOfInput) :
    ∃ r' : Lexer.Reading α, t.ahead Lexer.standard position = .ok r' ∧
      r'.token.kind = r.token.kind ∧ r'.interner = r.interner ∧
      Along α kind tail extra (s.consume r) (t.consume r') := by
  rcases h.place with ⟨continues, outside⟩ | ⟨_, ends, _⟩
  · obtain ⟨r', read', same, interner, continues'⟩ :=
      Lexer.next_append behind.breaks (behind.apart h.known) continues read more
    refine ⟨r', ?_, same, interner, h.known, h.operators, interner.symm, .inl ⟨continues', ?_⟩⟩
    · rw [ParseState.ahead, ← h.operators, ← h.interner]
      exact read'
    · obtain ⟨m, n, _, forward, _⟩ := (Lexer.lexes_of_next read).place
      change ¬ EndsInComment r.cursor.rest
      rw [forward, Cursor.advance_advance, Cursor.rest_advance]
      exact fun comment => outside comment.of_drop
  · obtain ⟨r', read', finished, _⟩ := ends.ahead position
    cases read.symm.trans read'
    exact absurd finished more

/-- Where the text ends, the longer one goes on with what is behind it. -/
theorem ahead_end (breaks : Breaks tail) (apart : Vocabulary.Apart s.operators.keys tail)
    (h : Along α kind tail extra s t) (ends : AtEnd α s) : (extra ≠ 0 ∧ AtEnd α t) ∨
      ∀ position, ∃ later : Cursor,
        (later.rest = tail ∨ later.rest = tail.drop (blankLength false tail)) ∧
        t.ahead (α := α) Lexer.standard position =
          Lexer.standard.next position s.operators.keys s.interner later := by
  rcases h.place with ⟨continues, outside⟩ | ⟨steps, _, ends'⟩
  · refine .inr fun position => ?_
    obtain ⟨r, read, finished, _⟩ := ends.ahead position
    obtain ⟨later, place, same⟩ :=
      Lexer.next_append_outside breaks apart continues outside read finished
    refine ⟨later, place, ?_⟩
    rw [ParseState.ahead, ← h.operators, ← h.interner]
    exact same
  · exact .inl ⟨steps, ends'⟩

/-- A look at a word of the text shows it in the longer text too. -/
theorem peek (behind : Addition α kind declares separators tail extra)
    (h : Along α kind tail extra s t)
    (read : s.ahead Lexer.standard position = .ok r) (more : r.token.kind ≠ .endOfInput) :
    ∃ token t', (plain α).peek position t = .ok token t' ∧ token.kind = r.token.kind ∧
      Along α kind tail extra { s with interner := r.interner } t' := by
  obtain ⟨r', read', same, interner, _⟩ := h.ahead behind read more
  refine ⟨r'.token, _, TokenSource.direct_peek_ok.mpr ⟨r', read', rfl, rfl⟩, same, ?_⟩
  rw [interner]
  exact h.look r.interner

theorem declare (behind : Addition α kind declares separators tail extra)
    (h : Along α kind tail extra s t) (may : declares) {name : String}
    (identifier : isIdentifier name.toList) (fixity : Fixity) (power : Power) :
    Along α kind tail extra (s.declare name fixity power) (t.declare name fixity power) := by
  refine ⟨behind.declare may h.known identifier _ _ _, ?_, ?_,
    h.place.imp id fun ⟨steps, ends, ends'⟩ =>
      ⟨steps, ends.declare identifier fixity power, ends'.declare identifier fixity power⟩⟩
  · unfold ParseState.declare
    rw [h.operators, h.interner]
  · unfold ParseState.declare
    rw [h.interner]

end Along

section Following

variable {kind : OperatorTable → Prop} {declares : Prop} {separators : String → Prop}
variable {tail : List Char} {extra : Nat} {s s' : ParseState × Log α} {t : ParseState}

/-- A parse of the text and one of the longer text at the same place. -/
abbrev Beside (α : Type) [Scalar α] [Numeral α] (kind : OperatorTable → Prop) (tail : List Char)
    (extra : Nat) (s : ParseState × Log α) (t : ParseState) : Prop :=
  Along α kind tail extra s.1 t

theorem over_of_atEnd (ends : AtEnd α s.1) : (noted α).Over s := by
  intro position token s' read
  obtain ⟨r, ahead, rfl, _⟩ := TokenSource.direct_logged_next_ok.mp read
  obtain ⟨r', ahead', finished, _⟩ := ends.ahead position
  cases ahead.symm.trans ahead'
  exact finished

theorem ended_of_atEnd (ends : AtEnd α s.1) : (noted α).Ended s := by
  intro before token peeked
  obtain ⟨r, ahead, rfl, rfl⟩ := TokenSource.direct_logged_peek_ok.mp peeked
  obtain ⟨r', again, finished, _⟩ := ends.ahead .operator
  cases (ParseState.ahead_again ahead).symm.trans again
  exact finished

/-- Behind a separator the text goes on, or the parse has come to an end that does not last. -/
theorem not_atEnd_of_separates (behind : Addition α kind declares separators tail extra)
    {token : Token α} (known : kind s'.1.operators)
    (read : (noted α).next .operator s = .ok token s')
    (separates : (noted α).Separates s' token) (lasting : Lasting declares separators s') :
    ¬ AtEnd α s'.1 := by
  obtain ⟨name, operator, rule, spelled, found, holds, separator⟩ := separates
  obtain ⟨r, _, rfl, rfl⟩ := TokenSource.direct_logged_next_ok.mp read
  intro ends
  refine lasting.2 ⟨ends, name, behind.separator known found holds separator, ?_⟩
  have word : r.token.kind ≠ .endOfInput := by
    rw [spelled]
    exact nofun
  rw [Log.words_append, Event.word?_of_ne_end word, spelled, Option.toList_some,
    List.getLast?_concat]

theorem Addition.outlasted (behind : Addition α kind declares separators tail extra) :
    (noted α).OutlastedBy (Lasting declares separators) (Beside α kind tail extra)
      (plain α) extra where
  operators related := related.operators
  lives_next read lasting := by
    obtain ⟨r, ahead, _, rfl⟩ := TokenSource.direct_logged_next_ok.mp read
    exact lasting.of_consume ahead
  lives_peek read lasting := by
    obtain ⟨r, _, _, rfl⟩ := TokenSource.direct_logged_peek_ok.mp read
    exact lasting.of_look
  next related read _ := by
    obtain ⟨r, ahead, rfl, rfl⟩ := TokenSource.direct_logged_next_ok.mp read
    by_cases ends : r.token.kind = .endOfInput
    · exact .inr ⟨ends, ended_of_atEnd (AtEnd.of_ahead ahead ends)⟩
    · obtain ⟨r', ahead', same, _, related'⟩ := related.ahead behind ahead ends
      have read' := TokenSource.direct_next_ok.mpr ⟨r', ahead', rfl, rfl⟩
      exact .inl ⟨r'.token, _, read', same, related'⟩
  operator {_ _ t _} related read _ := by
    obtain ⟨r, ahead, rfl, rfl⟩ := TokenSource.direct_logged_peek_ok.mp read
    by_cases ends : r.token.kind = .endOfInput
    · have last := AtEnd.of_ahead ahead ends
      refine .inr ⟨ends, over_of_atEnd (last.look r.interner), fun steps enough power left => ?_⟩
      obtain ⟨r', again, _, same⟩ := last.ahead .operator
      cases ahead.symm.trans again
      obtain ⟨t', stopped, related'⟩ := behind.stops related last steps enough power left
      refine ⟨t', stopped, ?_⟩
      rw [same]
      exact related'
    · exact .inl (related.peek behind ahead ends)
  operand {_ _ t _} related read _ := by
    obtain ⟨r, ahead, rfl, rfl⟩ := TokenSource.direct_logged_peek_ok.mp read
    by_cases ends : r.token.kind = .endOfInput
    · have last := AtEnd.of_ahead ahead ends
      obtain ⟨r', again, _, same⟩ := last.ahead .operand
      cases ahead.symm.trans again
      obtain ⟨r', ahead', interner⟩ := behind.reads related last .operand
      refine ⟨r'.token, _, TokenSource.direct_peek_ok.mpr ⟨r', ahead', rfl, rfl⟩, ?_⟩
      rw [same, interner, related.interner]
      exact related.look t.interner
    · obtain ⟨token, t', read', _, related'⟩ := related.peek behind ahead ends
      exact ⟨token, t', read', related'⟩
  separator read separates := by
    constructor
    · intro s' look peeked lasting
      obtain ⟨r, _, _, rfl⟩ := TokenSource.direct_logged_peek_ok.mp peeked
      exact lasting.of_look
    · intro s' t look related peeked lasting
      obtain ⟨r, ahead, rfl, rfl⟩ := TokenSource.direct_logged_peek_ok.mp peeked
      have more : r.token.kind ≠ .endOfInput := fun ends =>
        not_atEnd_of_separates behind related.known read separates lasting.of_look
          (AtEnd.of_ahead ahead ends)
      obtain ⟨token, t', read', same, related'⟩ := related.peek behind ahead more
      refine ⟨token, t', read', ?_, related'⟩
      rw [SameEnd, same]
  named read := by
    obtain ⟨r, ahead, rfl, _⟩ := TokenSource.direct_logged_next_ok.mp read
    exact ParseState.named_of_ahead ahead
  declare {name} fixity power identifier := by
    constructor
    · intro s s' _ ran lasting
      cases ran
      exact lasting.of_declare identifier
    · intro s s' t _ related ran lasting
      cases ran
      have may : declares := lasting.1.resolve_right fun nothing =>
        absurd (nothing _ (List.mem_append_right _ (List.mem_singleton_self _))) nofun
      exact ⟨(), t.declare name fixity power, rfl, rfl,
        related.declare behind may identifier fixity power⟩

end Following

end IntervalCalc
