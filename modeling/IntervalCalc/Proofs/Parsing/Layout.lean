import IntervalCalc.Proofs.Lexing.Fronts
import IntervalCalc.Proofs.Parsing.Following
import IntervalCalc.Proofs.Parsing.Parallel
import IntervalCalc.Scalar.Float

/-!
Layout. A text that is parsed is divided into the words that the parse consumes, with white space
and comments around them. With other white space and other comments in these places the words stay
the same, each in the position in which it was asked for, and so does everything that the parse
comes to.
-/

namespace IntervalCalc

variable {α : Type}

/-- A word of a text, with the white space and comments before it. -/
structure Piece where
  gap : List Char
  lexeme : List Char

def Piece.text (piece : Piece) : List Char :=
  piece.gap ++ piece.lexeme

/-- Where the words of a text begin and end. -/
def Piece.spans (start : Location) : List Piece → List (Location × Location)
  | [] => []
  | piece :: pieces =>
    let first := piece.gap.foldl Location.after start
    let last := piece.lexeme.foldl Location.after first
    (first, last) :: spans last pieces

/-- A text in pieces, with what stands behind its last word. -/
structure Layout where
  pieces : List Piece
  last : List Char

def Layout.text (layout : Layout) : List Char :=
  layout.pieces.flatMap Piece.text ++ layout.last

/-- The same word with other white space and comments before it. Every comment ends there, and where
there was something between two words there still is. -/
structure Piece.Respaced (piece piece' : Piece) : Prop where
  lexeme : piece'.lexeme = piece.lexeme
  blank : Blanks false piece'.gap
  kept : piece'.gap = [] → piece.gap = []

/-- The same words with other white space and comments around them. The last comment may be open. -/
structure Layout.Respaced (layout layout' : Layout) : Prop where
  pieces : List.Forall₂ Piece.Respaced layout.pieces layout'.pieces
  last : ∃ inComment, Blanks inComment layout'.last

theorem Piece.spans_append (start : Location) (pieces more : List Piece) :
    spans start (pieces ++ more) = spans start pieces ++
      spans ((pieces.flatMap Piece.text).foldl Location.after start) more := by
  induction pieces generalizing start with
  | nil => rfl
  | cons piece pieces ih =>
      simp only [List.cons_append, spans, ih, List.flatMap_cons, Piece.text, List.foldl_append]

/-- A place is further on behind every character. -/
theorem Location.offset_foldl_le (start : Location) (text : List Char) :
    start.offset + text.length ≤ (text.foldl Location.after start).offset := by
  induction text generalizing start with
  | nil => exact Nat.le_refl _
  | cons c text ih =>
      have later := ih (start.after c)
      have further : start.offset < (start.after c).offset := by
        have size := Char.utf8Size_pos c
        unfold Location.after
        split <;> exact Nat.lt_add_of_pos_right size
      rw [List.foldl_cons, List.length_cons]
      omega

/-- Two beginnings of a text that end at the same place are the same. -/
theorem eq_of_location_eq {start : Location} {front front' rest rest' : List Char}
    (same : front ++ rest = front' ++ rest')
    (place : front.foldl Location.after start = front'.foldl Location.after start) :
    front = front' ∧ rest = rest' := by
  have shorter {front more : List Char}
      (place : front.foldl Location.after start = (front ++ more).foldl Location.after start) :
      more = [] := by
    rw [List.foldl_append] at place
    have further := Location.offset_foldl_le (front.foldl Location.after start) more
    rw [← place] at further
    exact List.length_eq_zero_iff.mp (by omega)
  rcases List.append_eq_append_iff.mp same with ⟨more, rfl, rfl⟩ | ⟨more, rfl, rfl⟩
  · obtain rfl := shorter place
    exact ⟨(List.append_nil _).symm, rfl⟩
  · obtain rfl := shorter place.symm
    exact ⟨List.append_nil _, rfl⟩

/-- The places of its words tell the pieces of a text. -/
theorem Piece.eq_of_spans {start : Location} {pieces pieces' : List Piece} {last last' : List Char}
    (text : pieces.flatMap Piece.text ++ last = pieces'.flatMap Piece.text ++ last')
    (places : spans start pieces = spans start pieces') : pieces = pieces' ∧ last = last' := by
  induction pieces generalizing start pieces' with
  | nil =>
      cases pieces' with
      | nil => exact ⟨rfl, text⟩
      | cons => cases places
  | cons piece pieces ih =>
      cases pieces' with
      | nil => cases places
      | cons piece' pieces' =>
          obtain ⟨gap, lexeme⟩ := piece
          obtain ⟨gap', lexeme'⟩ := piece'
          simp only [spans, List.cons.injEq, Prod.mk.injEq] at places
          simp only [List.flatMap_cons, Piece.text, List.append_assoc] at text
          obtain ⟨⟨first, end'⟩, later⟩ := places
          obtain ⟨rfl, behind⟩ := eq_of_location_eq text first
          obtain ⟨rfl, rest⟩ := eq_of_location_eq behind end'
          obtain ⟨rfl, rfl⟩ := ih rest later
          exact ⟨rfl, rfl⟩

/-- Up to the first gap that a text has got, it is what it was. -/
theorem Piece.common_front {pieces pieces' : List Piece} (last : List Char) {last' : List Char}
    (respaced : List.Forall₂ Piece.Respaced pieces pieces') {inComment : Bool}
    (blanks : Blanks inComment last') :
    ∃ front tail tail', pieces.flatMap Piece.text ++ last = front ++ tail ∧
      pieces'.flatMap Piece.text ++ last' = front ++ tail' ∧ Parted tail' := by
  induction respaced with
  | nil => exact ⟨[], last, last', rfl, rfl, blanks.parted⟩
  | @cons piece piece' pieces pieces' respaced _ ih =>
      obtain ⟨gap, lexeme⟩ := piece
      obtain ⟨gap', lexeme'⟩ := piece'
      obtain ⟨rfl, blank, kept⟩ := respaced
      by_cases touching : gap' = []
      · obtain ⟨front, tail, tail', text, text', parted⟩ := ih
        obtain rfl : gap = [] := kept touching
        subst touching
        refine ⟨lexeme' ++ front, tail, tail', ?_, ?_, parted⟩
        · simp only [List.flatMap_cons, Piece.text, List.nil_append, List.append_assoc, text]
        · simp only [List.flatMap_cons, Piece.text, List.nil_append, List.append_assoc, text']
      · refine ⟨[], _, gap' ++ (lexeme' ++ (pieces'.flatMap Piece.text ++ last')), rfl, ?_,
          blank.parted.append touching _⟩
        simp only [List.flatMap_cons, Piece.text, List.nil_append, List.append_assoc]

/-- A word that was consumed, with the position in which it was asked for. -/
def Event.taken? : Event α → Option (Position × Lexer.Reading α)
  | consumed position operators interner reading =>
    (word? (.consumed position operators interner reading)).map fun _ => (position, reading)
  | declared _ _ _ => none

def Log.taken (log : Log α) : List (Position × Lexer.Reading α) :=
  log.filterMap Event.taken?

def Log.positions (log : Log α) : List Position :=
  log.taken.map Prod.fst

/-- Where the words that were consumed begin and end. -/
def Log.spans (log : Log α) : List (Location × Location) :=
  log.taken.map fun word => (word.2.token.location, word.2.cursor.location)

/-- The pieces of a text are the words that were consumed of it. -/
structure Layout.Records (layout : Layout) (source : String) (log : Log α) : Prop where
  text : layout.text = source.toList
  spans : Piece.spans .start layout.pieces = log.spans

theorem Layout.Records.unique {layout layout' : Layout} {source : String} {log : Log α}
    (h : layout.Records source log) (h' : layout'.Records source log) : layout = layout' := by
  obtain ⟨pieces, last⟩ := layout
  obtain ⟨pieces', last'⟩ := layout'
  obtain ⟨rfl, rfl⟩ := Piece.eq_of_spans (h.text.trans h'.text.symm) (h.spans.trans h'.spans.symm)
  rfl

section Taking

variable {log : Log α} {position : Position} {operators : OperatorTable} {interner : Interner}
variable {r : Lexer.Reading α}

theorem Log.taken_append (event : Event α) :
    Log.taken (log ++ [event]) = log.taken ++ event.taken?.toList :=
  log.filterMap_append Event.taken? event

theorem Log.taken_of_end (ends : r.token.kind = .endOfInput) :
    Log.taken (log ++ [.consumed position operators interner r]) = log.taken := by
  rw [Log.taken_append, Event.taken?, Event.word?_of_end ends, Option.map_none, Option.toList_none,
    List.append_nil]

theorem Log.taken_of_ne_end (more : r.token.kind ≠ .endOfInput) :
    Log.taken (log ++ [.consumed position operators interner r]) = log.taken ++ [(position, r)] := by
  rw [Log.taken_append, Event.taken?, Event.word?_of_ne_end more, Option.map_some,
    Option.toList_some]

theorem Log.taken_declared (name : String) (fixity : Fixity) (power : Power) :
    Log.taken (log ++ [.declared name fixity power]) = log.taken := by
  rw [Log.taken_append, Event.taken?, Option.toList_none, List.append_nil]

end Taking

/-- Words in the positions in which they are read, before what is left of a text. -/
inductive Laid : List (Position × Piece) → List Char → Prop
  | nil {rest : List Char} : Laid [] rest
  | cons {position : Position} {piece : Piece} {words : List (Position × Piece)}
    {rest text : List Char} : Blanks false piece.gap →
      text = (words.map Prod.snd).flatMap Piece.text ++ rest →
      Share position OperatorTable.standard.keys (piece.lexeme ++ text) (piece.lexeme ++ text)
        piece.lexeme → Laid words rest → Laid ((position, piece) :: words) rest

theorem Laid.snoc {words : List (Position × Piece)} {position : Position} {piece : Piece}
    {rest rest' : List Char} (h : Laid words rest) (blank : Blanks false piece.gap)
    (spelled : rest = piece.gap ++ (piece.lexeme ++ rest'))
    (share : Share position OperatorTable.standard.keys (piece.lexeme ++ rest')
      (piece.lexeme ++ rest') piece.lexeme) : Laid (words ++ [(position, piece)]) rest' := by
  induction h with
  | nil => exact .cons blank rfl share .nil
  | @cons position piece words rest text blank' same share' _ ih =>
      refine .cons blank' ?_ share' (ih spelled)
      rw [same, spelled]
      simp [Piece.text]

theorem Laid.blank {words : List (Position × Piece)} {rest : List Char} (h : Laid words rest) :
    ∀ piece ∈ words.map Prod.snd, Blanks false piece.gap := by
  induction h with
  | nil => intro piece absurd; cases absurd
  | cons blank _ _ _ ih => exact List.forall_mem_cons.mpr ⟨blank, ih⟩

/-- Two texts with the same words, each read in the position given for it, and with white space and
comments around them. -/
inductive Relaid : List Position → List Char → List Char → Prop
  | ends {inComment inComment' : Bool} {text text' : List Char} :
    Blanks inComment text → Blanks inComment' text' → Relaid [] text text'
  | word {position : Position} {positions : List Position}
    {gap gap' lexeme text text' : List Char} : Blanks false gap → Blanks false gap' →
      Share position OperatorTable.standard.keys (lexeme ++ text) (lexeme ++ text') lexeme →
      Relaid positions text text' →
      Relaid (position :: positions) (gap ++ (lexeme ++ text)) (gap' ++ (lexeme ++ text'))

theorem Laid.relaid {words : List (Position × Piece)} {pieces : List Piece}
    {rest last : List Char} {inComment inComment' : Bool} (h : Laid words rest)
    (ends : Blanks inComment rest) (blanks : Blanks inComment' last)
    (respaced : List.Forall₂ Piece.Respaced (words.map Prod.snd) pieces) :
    Relaid (words.map Prod.fst) ((words.map Prod.snd).flatMap Piece.text ++ rest)
      (pieces.flatMap Piece.text ++ last) := by
  induction h generalizing pieces with
  | nil =>
      cases respaced
      exact .ends ends blanks
  | @cons position piece words rest text blank same share _ ih =>
      cases respaced with
      | @cons _ piece' _ pieces respaced later =>
          obtain ⟨front, tail, tail', spelled, spelled', parted⟩ :=
            Piece.common_front rest later blanks
          rw [same, spelled, ← List.append_assoc] at share
          have onward := share.onward rfl parted (List.prefix_append piece.lexeme front)
          rw [List.append_assoc, List.append_assoc, ← spelled, ← spelled'] at onward
          have whole := Relaid.word blank respaced.blank onward (ih ends later)
          simpa only [List.map_cons, List.flatMap_cons, Piece.text, List.append_assoc,
            respaced.lexeme] using whole

section Words

variable [Scalar α] [Numeral α]

/-- A text is divided into the words that were consumed of it and the rest of it. The log has the
place and the position of each of them. -/
structure Wording (text : List Char) (log : Log α) (words : List (Position × Piece))
    (rest : List Char) : Prop where
  laid : Laid words rest
  text : text = (words.map Prod.snd).flatMap Piece.text ++ rest
  positions : words.map Prod.fst = log.positions
  spans : Piece.spans .start (words.map Prod.snd) = log.spans

/-- The words that a parse has consumed end at its cursor. Where the end of the text was consumed as
well, there are only blanks behind them. -/
structure Worded (text : List Char) (s : ParseState × Log α) : Prop where
  symbols : Vocabulary.symbols s.1.operators.keys = Vocabulary.symbols OperatorTable.standard.keys
  words : ∃ words rest, Wording text s.2 words rest ∧
    ((rest = s.1.cursor.rest ∧ s.1.cursor.location =
        ((words.map Prod.snd).flatMap Piece.text).foldl Location.after .start) ∨
      (s.1.cursor.rest = [] ∧ ∃ inComment, Blanks inComment rest))

variable {text : List Char} {s : ParseState} {log log' : Log α} {position : Position}
variable {r : Lexer.Reading α}

omit [Scalar α] [Numeral α] in
theorem Wording.congr {words : List (Position × Piece)} {rest : List Char}
    (h : Wording text log words rest) (same : log'.taken = log.taken) :
    Wording text log' words rest := by
  refine ⟨h.laid, h.text, ?_, ?_⟩
  · rw [Log.positions, same]
    exact h.positions
  · rw [Log.spans, same]
    exact h.spans

omit [Scalar α] [Numeral α] in
theorem Wording.snoc {words : List (Position × Piece)} {rest gap lexeme rest' : List Char}
    (h : Wording text log words rest) (blank : Blanks false gap)
    (spelled : rest = gap ++ (lexeme ++ rest'))
    (share : Share position OperatorTable.standard.keys (lexeme ++ rest') (lexeme ++ rest') lexeme)
    (taken : log'.taken = log.taken ++ [(position, r)])
    (place : Piece.spans (((words.map Prod.snd).flatMap Piece.text).foldl Location.after .start)
      [⟨gap, lexeme⟩] = [(r.token.location, r.cursor.location)]) :
    Wording text log' (words ++ [(position, ⟨gap, lexeme⟩)]) rest' := by
  refine ⟨h.laid.snoc blank spelled share, ?_, ?_, ?_⟩
  · rw [h.text, spelled]
    simp [Piece.text]
  · rw [List.map_append, h.positions]
    simp [Log.positions, taken]
  · rw [List.map_append, Piece.spans_append, h.spans]
    simp [Log.spans, taken, place]

theorem Worded.consume (h : Worded text (s, log))
    (read : s.ahead Lexer.standard position = .ok r) :
    Worded text (s.consume r, log ++ [.consumed position s.operators s.interner r]) := by
  obtain ⟨symbols, words, rest, wording, place⟩ := h
  refine ⟨symbols, ?_⟩
  have finish {inComment : Bool} (blanks : Blanks inComment s.cursor.rest) :
      r.token.kind = .endOfInput ∧ r.cursor.rest = [] := by
    obtain ⟨r', read', ends, _, finished⟩ := Lexer.next_of_all_blanks (α := α) symbols blanks
    cases read.symm.trans read'
    exact ⟨ends, finished⟩
  obtain ⟨rfl, location⟩ | ⟨finished, blanks⟩ := place
  · rcases Lexer.next_divided (Vocabulary.clear_of_symbols symbols) read with
      ⟨_, inComment, blanks⟩ | ⟨more, gap, lexeme, rest, blanks, spelled, share, begins, after⟩
    · obtain ⟨ends, finished⟩ := finish blanks
      exact ⟨words, s.cursor.rest, wording.congr (Log.taken_of_end ends),
        .inr ⟨finished, inComment, blanks⟩⟩
    · have spelled' := Cursor.rest_advanceOver spelled
      have ends : r.cursor.location =
          lexeme.foldl Location.after (gap.foldl Location.after s.cursor.location) := by
        rw [after, Cursor.location_advanceOver spelled', Cursor.location_advanceOver spelled]
      refine ⟨words ++ [(position, ⟨gap, lexeme⟩)], rest, ?_, .inl ⟨?_, ?_⟩⟩
      · refine wording.snoc blanks spelled (share.congr symbols) (Log.taken_of_ne_end more) ?_
        rw [← location, begins, ends]
        rfl
      · change rest = r.cursor.rest
        rw [after, Cursor.rest_advanceOver spelled']
      · change r.cursor.location = _
        rw [ends, location]
        simp [Piece.text]
  · rw [finished] at finish
    obtain ⟨ends, finished'⟩ := finish .none
    exact ⟨words, rest, wording.congr (Log.taken_of_end ends), .inr ⟨finished', blanks⟩⟩

omit [Scalar α] [Numeral α] in
theorem Worded.declare (h : Worded text (s, log)) {name : String}
    (identifier : isIdentifier name.toList) (fixity : Fixity) (power : Power) :
    Worded text (s.declare name fixity power, log ++ [.declared name fixity power]) := by
  obtain ⟨symbols, words, rest, wording, place⟩ := h
  exact ⟨(OperatorTable.symbols_insert identifier _).trans symbols, words, rest,
    wording.congr (Log.taken_declared name fixity power), place⟩

theorem worded_persists (text : List Char) :
    (noted α).Simulates (plain α) fun s t => s.1 = t ∧ Worded text s :=
  TokenSource.direct_logged_simulates (fun worded read => worded.consume read)
    (fun worded _ => ⟨worded.symbols, worded.words⟩)
    (fun worded identifier => worded.declare identifier _ _)

end Words

section Reading

variable [Scalar α] [Numeral α]
variable (α) {vocabulary : Vocabulary} (interner : Interner) {cursor cursor' : Cursor}
variable {position : Position} {positions : List Position}
variable (same : vocabulary.symbols = Vocabulary.symbols OperatorTable.standard.keys)

include same

/-- A word is shared in the position in which it was asked for. In the other one it may be read in one
text and not in the other: a sign belongs to a number only if nothing is between them. So the
positions that the first parse comes to ask for are foreseen, and the second one is followed along
them. -/
theorem Relaid.next (h : Relaid (position :: positions) cursor.rest cursor'.rest) :
    ∃ r r' : Lexer.Reading α, Lexer.standard.next position vocabulary interner cursor = .ok r ∧
      Lexer.standard.next position vocabulary interner cursor' = .ok r' ∧
      r.token.kind ≠ .endOfInput ∧ r'.token.kind = r.token.kind ∧ r'.interner = r.interner ∧
      Relaid positions r.cursor.rest r'.cursor.rest := by
  generalize spelled : cursor.rest = rest at h
  generalize spelled' : cursor'.rest = rest' at h
  cases h with
  | word blanks blanks' share later =>
      have shared := share.congr same.symm
      obtain ⟨kind, interner', more, read, read'⟩ :=
        Share.next α interner same blanks spelled blanks' spelled' shared
      refine ⟨_, _, read, read', more, rfl, rfl, ?_⟩
      rw [Cursor.rest_advanceOver (Cursor.rest_advanceOver spelled),
        Cursor.rest_advanceOver (Cursor.rest_advanceOver spelled')]
      exact later

theorem Relaid.finished (h : Relaid [] cursor.rest cursor'.rest) (position : Position) :
    ∃ r r' : Lexer.Reading α, Lexer.standard.next position vocabulary interner cursor = .ok r ∧
      Lexer.standard.next position vocabulary interner cursor' = .ok r' ∧
      r.token.kind = .endOfInput ∧ r'.token.kind = .endOfInput ∧ r'.interner = r.interner ∧
      Relaid [] r.cursor.rest r'.cursor.rest := by
  cases h with
  | ends blanks blanks' =>
      obtain ⟨r, read, ends, known, none⟩ := Lexer.next_of_all_blanks (α := α) same blanks
      obtain ⟨r', read', ends', known', none'⟩ := Lexer.next_of_all_blanks (α := α) same blanks'
      refine ⟨r, r', read, read', ends, ends', known'.trans known.symm, ?_⟩
      rw [none, none']
      exact .ends .none .none

/-- In either position something is read from both texts, or neither has anything left. -/
theorem Relaid.seen (h : Relaid positions cursor.rest cursor'.rest) (position : Position) :
    ∃ r r' : Lexer.Reading α, Lexer.standard.next position vocabulary interner cursor = .ok r ∧
      Lexer.standard.next position vocabulary interner cursor' = .ok r' ∧
      SameEnd r.token r'.token ∧ (r.token.kind = .endOfInput → positions = []) ∧
      r'.interner = r.interner ∧ (position = .operator → SameKind r.token r'.token) := by
  cases positions with
  | nil =>
      obtain ⟨r, r', read, read', ends, ends', known, _⟩ := h.finished α interner same position
      exact ⟨r, r', read, read', ⟨fun _ => ends, fun _ => ends'⟩, fun _ => rfl, known,
        fun _ => ends'.trans ends.symm⟩
  | cons first positions =>
      generalize spelled : cursor.rest = rest at h
      generalize spelled' : cursor'.rest = rest' at h
      cases h with
      | word blanks blanks' share later =>
          have shared := share.congr same.symm
          obtain ⟨r, r', read, read', more, more', known, alike⟩ :=
            Share.next_elsewhere α interner same blanks spelled blanks' spelled' shared position
          exact ⟨r, r', read, read', ⟨fun ends => absurd ends more', fun ends => absurd ends more⟩,
            fun ends => absurd ends more, known, alike⟩

end Reading

section Following

variable [Scalar α] [Numeral α]

/-- A parse with the positions of its words foreseen, and one of a text in another layout. -/
structure Kept (foreseen : List Position) (s : ParseState × Log α) (t : ParseState) : Prop where
  operators : s.1.operators = t.operators
  interner : s.1.interner = t.interner
  symbols : Vocabulary.symbols s.1.operators.keys = Vocabulary.symbols OperatorTable.standard.keys
  relaid : ∃ positions, foreseen = s.2.positions ++ positions ∧
    Relaid positions s.1.cursor.rest t.cursor.rest

/-- The positions that a parse has had so far are those that are foreseen. -/
def Foreseen (foreseen : List Position) (s : ParseState × Log α) : Prop :=
  s.2.positions <+: foreseen

variable {foreseen : List Position} {s s' : ParseState × Log α} {t : ParseState}

omit [Scalar α] [Numeral α] in
theorem Foreseen.of_append {log : Log α} {event : Event α}
    (h : Foreseen foreseen (s.1, log ++ [event])) : Foreseen foreseen (s.1, log) := by
  unfold Foreseen Log.positions at h
  rw [Log.taken_append, List.map_append] at h
  exact (List.prefix_append _ _).trans h

namespace Kept

variable {position : Position} {r : Lexer.Reading α}

/-- What is looked at is of use in both texts. -/
theorem look (h : Kept foreseen s t) (read : s.1.ahead Lexer.standard position = .ok r) :
    ∃ r' : Lexer.Reading α, t.ahead Lexer.standard position = .ok r' ∧ SameEnd r.token r'.token ∧
      (position = .operator → SameKind r.token r'.token) ∧
      Kept foreseen ({ s.1 with interner := r.interner }, s.2) { t with interner := r'.interner } := by
  obtain ⟨positions, spelled, relaid⟩ := h.relaid
  obtain ⟨r₁, r', read₁, read', ends, _, known, alike⟩ :=
    relaid.seen α s.1.interner h.symbols position
  cases read.symm.trans read₁
  refine ⟨r', ?_, ends, alike, h.operators, known.symm, h.symbols, positions, spelled, relaid⟩
  unfold ParseState.ahead
  rw [← h.operators, ← h.interner]
  exact read'

/-- A word is consumed in the position that is foreseen for it. -/
theorem consume (h : Kept foreseen s t) (read : s.1.ahead Lexer.standard position = .ok r)
    {log : Log α} (same : log = s.2 ++ [.consumed position s.1.operators s.1.interner r])
    (alive : Foreseen foreseen (s.1.consume r, log)) :
    ∃ r' : Lexer.Reading α, t.ahead Lexer.standard position = .ok r' ∧
      SameKind r.token r'.token ∧ Kept foreseen (s.1.consume r, log) (t.consume r') := by
  obtain ⟨positions, spelled, relaid⟩ := h.relaid
  obtain ⟨r₁, _, read₁, _, _, last, _, _⟩ :=
    relaid.seen α s.1.interner h.symbols position
  cases read.symm.trans read₁
  have other : t.ahead (α := α) Lexer.standard position =
      Lexer.standard.next position s.1.operators.keys s.1.interner t.cursor := by
    unfold ParseState.ahead
    rw [h.operators, h.interner]
  by_cases ends : r.token.kind = .endOfInput
  · obtain rfl := last ends
    obtain ⟨r₁, r', read₁, read', _, ends', known, relaid'⟩ :=
      relaid.finished α s.1.interner h.symbols position
    cases read.symm.trans read₁
    refine ⟨r', other.trans read', ends'.trans ends.symm, h.operators, known.symm, h.symbols, [], ?_,
      relaid'⟩
    rw [spelled, same, Log.positions, Log.positions, Log.taken_of_end ends]
  · have grown : Log.positions log = s.2.positions ++ [position] := by
      rw [same, Log.positions, Log.taken_of_ne_end ends, List.map_append]
      rfl
    obtain ⟨later, whole⟩ := alive
    change log.positions ++ later = _ at whole
    rw [grown, spelled, List.append_assoc] at whole
    obtain rfl : position :: later = positions := List.append_cancel_left whole
    obtain ⟨r₁, r', read₁, read', _, kind, known, relaid'⟩ :=
      relaid.next α s.1.interner h.symbols
    cases read.symm.trans read₁
    refine ⟨r', other.trans read', kind, h.operators, known.symm, h.symbols, later, ?_, relaid'⟩
    rw [spelled, grown, List.append_assoc]
    rfl

omit [Scalar α] [Numeral α] in
theorem declare (h : Kept foreseen s t) {name : String} (identifier : isIdentifier name.toList)
    (fixity : Fixity) (power : Power) : Kept foreseen
      (s.1.declare name fixity power, s.2 ++ [.declared name fixity power])
      (t.declare name fixity power) := by
  obtain ⟨positions, spelled, relaid⟩ := h.relaid
  refine ⟨?_, ?_, ?_, positions, ?_, relaid⟩
  · unfold ParseState.declare
    rw [h.operators, h.interner]
  · unfold ParseState.declare
    rw [h.interner]
  · exact (OperatorTable.symbols_insert identifier _).trans h.symbols
  · rw [Log.positions, Log.taken_declared]
    exact spelled

end Kept

theorem peek_followed {V : Token α → Token α → Prop} {position : Position}
    (fits : ∀ token token', SameEnd token token' →
      (position = .operator → SameKind token token') → V token token') :
    Followed (Foreseen foreseen) (Kept foreseen) V ((noted α).peek position)
      ((plain α).peek position) := by
  constructor
  · intro s s' token read alive
    obtain ⟨r, _, rfl, rfl⟩ := TokenSource.direct_logged_peek_ok.mp read
    exact alive
  · intro s s' t token related read alive
    obtain ⟨r, ahead, rfl, rfl⟩ := TokenSource.direct_logged_peek_ok.mp read
    obtain ⟨r', ahead', ends, same, related'⟩ := related.look ahead
    exact ⟨r'.token, _, TokenSource.direct_peek_ok.mpr ⟨r', ahead', rfl, rfl⟩,
      fits r.token r'.token ends same, related'⟩

theorem kept_follows (foreseen : List Position) :
    (noted α).FollowedBy (Foreseen foreseen) (Kept foreseen) (plain α) where
  operators related := related.operators
  next position := by
    constructor
    · intro s s' token read alive
      obtain ⟨r, _, rfl, rfl⟩ := TokenSource.direct_logged_next_ok.mp read
      exact alive.of_append
    · intro s s' t token related read alive
      obtain ⟨r, ahead, rfl, rfl⟩ := TokenSource.direct_logged_next_ok.mp read
      obtain ⟨r', ahead', same, related'⟩ := related.consume ahead rfl alive
      exact ⟨r'.token, _, TokenSource.direct_next_ok.mpr ⟨r', ahead', rfl, rfl⟩, same, related'⟩
  operator := peek_followed fun _ _ _ same => same rfl
  operand := peek_followed fun _ _ ends _ => ends
  named read := by
    obtain ⟨r, ahead, rfl, _⟩ := TokenSource.direct_logged_next_ok.mp read
    exact ParseState.named_of_ahead ahead
  declare := by
    intro name fixity power identifier
    constructor
    · intro s s' _ ran alive
      cases ran
      exact alive.of_append
    · intro s s' t _ related ran alive
      cases ran
      exact ⟨(), t.declare name fixity power, rfl, rfl, related.declare identifier fixity power⟩

end Following

namespace Grammar

variable [Scalar α] [Numeral α]
variable {grammar : Grammar} {interner : Interner} {source : String} {result : Expr α}

/-- More steps than a text can take change nothing. -/
theorem parse_of_steps (standard : grammar.lexer = .standard) {steps : Nat} {t : ParseState}
    (enough : Parser.stepsFor source.toList ≤ steps)
    (ran : Parser.program (plain α) steps (grammar.start interner source) = .ok result t) :
    grammar.parse interner source = ⟨.ok result, ⟨grammar.lexer, t.operators⟩, t.interner⟩ := by
  have same : grammar.parseDirect interner source = .ok result t := by
    have enough : Parser.stepsFor (grammar.start interner source).cursor.rest ≤ steps := enough
    refine parseDirect_ok.mpr ?_
    rw [standard]
    exact (Direct.program_ok enough).mp ran
  rw [parse_eq_direct, same]
  rfl

/-- A text that is parsed has a layout. -/
theorem parse_divided (standard : grammar.lexer = .standard) (grown : grammar.operators.Grown)
    {after : ParseState × Log α}
    (logged : grammar.parseDirectLogged interner source = .ok result after)
    (finished : after.1.cursor.rest = []) :
    ∃ words rest inComment, Wording source.toList after.2 words rest ∧ Blanks inComment rest := by
  have start : Worded (α := α) source.toList (grammar.start interner source, []) :=
    ⟨grown.symbols, [], source.toList, ⟨.nil, rfl, rfl, rfl⟩, .inl ⟨rfl, rfl⟩⟩
  unfold parseDirectLogged at logged
  rw [standard] at logged
  obtain ⟨_, words, rest, wording, place⟩ :=
    ((worded_persists source.toList).program (Parser.stepsFor source.toList)).keeps start logged
  obtain ⟨same, _⟩ | ⟨_, inComment, blanks⟩ := place
  · rw [finished] at same
    exact ⟨words, rest, false, wording, same ▸ .none⟩
  · exact ⟨words, rest, inComment, wording, blanks⟩

/-- Layout does not matter. The words that a parse consumes of a text, with the white space and
comments around them, are all of it. If other white space and other comments are put in their
places, the parse comes to the same tree and leaves the same operators and names. -/
theorem parse_layout (standard : grammar.lexer = .standard) (grown : grammar.operators.Grown)
    (accepted : (grammar.parse interner source).outcome = .ok result) :
    (∃ layout : Layout, layout.Records source (grammar.history α interner source) ∧
      layout.Respaced layout) ∧
    ∀ layout layout' : Layout, layout.Records source (grammar.history α interner source) →
      layout.Respaced layout' →
        grammar.parse (α := α) interner (String.ofList layout'.text) =
          grammar.parse interner source := by
  obtain ⟨after, logged, parsed, history, _, finished⟩ :=
    parseDirectLogged_ok grammar interner source accepted
  obtain ⟨words, rest, inComment, wording, blanks⟩ := parse_divided standard grown logged finished
  rw [history, parsed]
  have records : Layout.Records ⟨words.map Prod.snd, rest⟩ source after.2 :=
    ⟨wording.text.symm, wording.spans⟩
  refine ⟨⟨_, records, ?_, inComment, blanks⟩, ?_⟩
  · exact List.forall₂_same.mpr fun piece member => ⟨rfl, wording.laid.blank piece member, id⟩
  · rintro layout ⟨pieces, last⟩ records' ⟨respaced, inComment', blanks'⟩
    obtain rfl := records.unique records'
    obtain ⟨source', spelled⟩ : ∃ source', source' = String.ofList (Layout.text ⟨pieces, last⟩) :=
      ⟨_, rfl⟩
    have kept : Kept (α := α) after.2.positions (grammar.start interner source, [])
        (grammar.start interner source') := by
      refine ⟨rfl, rfl, grown.symbols, words.map Prod.fst, wording.positions.symm, ?_⟩
      change Relaid _ source.toList source'.toList
      rw [spelled, String.toList_ofList, wording.text]
      exact wording.laid.relaid blanks blanks' respaced
    unfold parseDirectLogged at logged
    rw [standard] at logged
    obtain ⟨_, t, ran, rfl, kept'⟩ := ((kept_follows after.2.positions).program
      (Parser.stepsFor source.toList) (Parser.stepsFor source'.toList)).follows kept logged List.prefix_rfl
    rw [← spelled, parse_of_steps standard (Nat.le_add_right _ _) ran, kept'.operators,
      kept'.interner]

/-- An operator that is declared and used in one text, closely written and widely. -/
theorem parse_layout_declaration :
    let source := "infix max 30;1max-2"
    let layout : Layout := ⟨[⟨[], "infix".toList⟩, ⟨" ".toList, "max".toList⟩,
      ⟨" ".toList, "30".toList⟩, ⟨[], ";".toList⟩, ⟨[], "1".toList⟩, ⟨[], "max".toList⟩,
      ⟨[], "-2".toList⟩], []⟩
    let layout' : Layout := ⟨[⟨[], "infix".toList⟩, ⟨"#name\n".toList, "max".toList⟩,
      ⟨"\n".toList, "30".toList⟩, ⟨" ".toList, ";".toList⟩, ⟨"\n".toList, "1".toList⟩,
      ⟨[], "max".toList⟩, ⟨" ".toList, "-2".toList⟩], "#end".toList⟩
    (standard.parse (α := Float) .empty source).outcome.isOk = true ∧
      layout.Records source (standard.history Float .empty source) ∧ layout.Respaced layout' ∧
      standard.parse (α := Float) .empty "infix#name\nmax\n30 ;\n1max -2#end" =
        standard.parse .empty source := by
  intro source layout layout'
  have accepted : (standard.parse (α := Float) .empty source).outcome.isOk = true := by
    decide +kernel
  have records : layout.Records source (standard.history Float .empty source) :=
    ⟨by decide +kernel, by decide +kernel⟩
  have blank {c : Char} (first : Unicode.isBlank c) : Blanks false [c] := .blank first .none
  have comment : Blanks false "#name\n".toList := @Blanks.comment _ "name".toList [] (by decide) .none
  have respaced : layout.Respaced layout' := by
    refine ⟨?_, true, @Blanks.openComment "end".toList (by decide)⟩
    exact .cons ⟨rfl, .none, fun _ => rfl⟩ <| .cons ⟨rfl, comment, nofun⟩ <|
      .cons ⟨rfl, blank (by decide), nofun⟩ <| .cons ⟨rfl, blank (by decide), nofun⟩ <|
      .cons ⟨rfl, blank (by decide), nofun⟩ <| .cons ⟨rfl, .none, fun _ => rfl⟩ <|
      .cons ⟨rfl, blank (by decide), nofun⟩ .nil
  obtain ⟨tree, parsed⟩ := exists_of_isOk accepted
  obtain ⟨_, same⟩ := @parse_layout _ _ _ standard .empty source tree rfl .standard parsed
  exact ⟨accepted, records, respaced, same layout layout' records respaced⟩

end Grammar

end IntervalCalc
