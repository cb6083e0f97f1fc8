import IntervalCalc.Grammar.Operator
import IntervalCalc.Proofs.Lexing.Reading

/-!
Texts that go on. If a text is followed by nothing or by a line feed, its tokens stay as they are:
no token of the language has a line feed in it, and none but a line feed ends a comment.
-/

namespace IntervalCalc

/-- A character that no name, no numeral and no interval literal goes on with. -/
def isBreak (c : Char) : Bool :=
  !(isNamePart c || Unicode.isAlphanumeric c || c.isDigit || c == '.' || c == '\x7b')

theorem isBreak_iff {c : Char} :
    isBreak c ↔ isNamePart c = false ∧ Unicode.isAlphanumeric c = false ∧ c.isDigit = false ∧
      c ≠ '.' ∧ c ≠ '\x7b' := by
  simp only [isBreak, Bool.not_eq_true', Bool.or_eq_false_iff, beq_eq_false_iff_ne, and_assoc]

/-- What may follow a text without a word of it going on: nothing, or something that begins with
such a character. -/
def Breaks (tail : List Char) : Prop :=
  ∀ c ∈ tail.head?, isBreak c

/-- What may follow a text: nothing, or something on a new line. -/
def OnNewLine (tail : List Char) : Prop :=
  ∀ c ∈ tail.head?, c = '\n'

theorem OnNewLine.breaks {tail : List Char} (apart : OnNewLine tail) : Breaks tail := by
  intro c first
  obtain rfl := apart c first
  decide +kernel

section Lists

variable {p : Char → Bool} {tail : List Char} (stops : ∀ c ∈ tail.head?, p c = false)

include stops

theorem takeWhile_append_stop (text : List Char) : (text ++ tail).takeWhile p = text.takeWhile p := by
  have stop : tail.takeWhile p = [] := by
    cases tail with
    | nil => rfl
    | cons c rest => rw [List.takeWhile_cons, stops c rfl, if_neg Bool.false_ne_true]
  induction text with
  | nil => exact stop
  | cons c text ih =>
      rw [List.cons_append, List.takeWhile_cons, List.takeWhile_cons, ih]

theorem dropWhile_append_stop (text : List Char) :
    (text ++ tail).dropWhile p = text.dropWhile p ++ tail := by
  have stop : tail.dropWhile p = tail := by
    cases tail with
    | nil => rfl
    | cons c rest => rw [List.dropWhile_cons, stops c rfl, if_neg Bool.false_ne_true]
  induction text with
  | nil => exact stop
  | cons c text ih =>
      rw [List.cons_append, List.dropWhile_cons, List.dropWhile_cons]
      split
      · exact ih
      · rfl

end Lists

section Lexemes

variable {tail : List Char}

theorem read?_append (apart : Breaks tail) (text : List Char) :
    DecimalNumeral.read? (text ++ tail) = DecimalNumeral.read? text := by
  have digits : ∀ c ∈ tail.head?, c.isDigit = false :=
    fun c first => (isBreak_iff.mp (apart c first)).2.2.1
  unfold DecimalNumeral.read?
  rw [takeWhile_append_stop digits, dropWhile_append_stop digits]
  cases text.takeWhile Char.isDigit with
  | nil => rfl
  | cons digit whole =>
      cases text.dropWhile Char.isDigit with
      | nil =>
          cases tail with
          | nil => rfl
          | cons c rest =>
              have other : c ≠ '.' := (isBreak_iff.mp (apart c rfl)).2.2.2.1
              rw [List.nil_append]
              split <;> simp_all
      | cons c rest =>
          by_cases point : c = '.'
          · subst point
            have same := takeWhile_append_stop digits rest
            change some (DecimalNumeral.mk _ ((rest ++ tail).takeWhile Char.isDigit)) = _
            rw [same]
            rfl
          · rw [List.cons_append]
            split <;> simp_all

theorem nameLexeme_append (apart : Breaks tail) (text : List Char) :
    nameLexeme (text ++ tail) = nameLexeme text := by
  have parts : ∀ c ∈ tail.head?, isNamePart c = false :=
    fun c first => (isBreak_iff.mp (apart c first)).1
  cases text with
  | nil =>
      cases tail with
      | nil => rfl
      | cons c rest =>
          have start : isNameStart c = false := (Bool.or_eq_false_iff.mp (parts c rfl)).1
          rw [List.nil_append, nameLexeme.eq_def]
          dsimp only
          rw [if_neg (ne_true_of_eq_false start)]
          rfl
  | cons c text =>
      rw [List.cons_append, nameLexeme, nameLexeme, takeWhile_append_stop parts]

theorem sign?_append {text : List Char} (more : text ≠ []) :
    sign? (text ++ tail) = (sign? text).map fun sign => (sign.1, sign.2 ++ tail) := by
  cases text with
  | nil => contradiction
  | cons c text =>
      unfold sign?
      split <;> simp_all

theorem sign?_some {text rest : List Char} {negative : Bool}
    (found : sign? text = some (negative, rest)) : ∃ c, text = c :: rest := by
  unfold sign? at found
  split at found
  · cases found; exact ⟨_, rfl⟩
  · cases found; exact ⟨_, rfl⟩
  · cases found

/-- No operator of a vocabulary goes over a line. -/
def Vocabulary.Inline (vocabulary : Vocabulary) : Prop :=
  ∀ name ∈ vocabulary, '\n' ∉ name.toList

/-- No operator of a vocabulary goes on with what a text begins with. -/
def Vocabulary.Apart (vocabulary : Vocabulary) (tail : List Char) : Prop :=
  ∀ name ∈ vocabulary, ∀ c ∈ tail.head?, c ∉ name.toList.drop 1

theorem Vocabulary.Inline.apart {vocabulary : Vocabulary} (inline : vocabulary.Inline)
    (apart : OnNewLine tail) : vocabulary.Apart tail := by
  intro name member c first within
  obtain rfl := apart c first
  exact inline name member (List.mem_of_mem_drop within)

theorem isPrefixOf_append_stop {spelling : List Char} (stops : ∀ c ∈ tail.head?, c ∉ spelling)
    (text : List Char) : spelling.isPrefixOf (text ++ tail) = spelling.isPrefixOf text := by
  induction spelling generalizing text with
  | nil => simp
  | cons c spelling ih =>
      cases text with
      | nil =>
          cases tail with
          | nil => rfl
          | cons first rest =>
              have other : first ≠ c := fun same => stops first rfl (same ▸ List.mem_cons_self)
              have differs : (c == first) = false := beq_eq_false_iff_ne.mpr other.symm
              simp [List.isPrefixOf, differs]
      | cons first text =>
          have later : ∀ c ∈ tail.head?, c ∉ spelling :=
            fun d member within => stops d member (List.mem_cons_of_mem c within)
          rw [List.cons_append, List.isPrefixOf, List.isPrefixOf, ih later]

theorem Vocabulary.longestSymbol?_append {vocabulary : Vocabulary} (clear : vocabulary.Apart tail)
    {text : List Char} (more : text ≠ []) :
    vocabulary.longestSymbol? (text ++ tail) = vocabulary.longestSymbol? text := by
  obtain ⟨first, text, rfl⟩ := List.exists_cons_of_ne_nil more
  unfold longestSymbol?
  dsimp only
  congr 1
  apply List.filter_congr
  intro name member
  have same : name.toList.isPrefixOf (first :: text ++ tail) =
      name.toList.isPrefixOf (first :: text) := by
    cases spelled : name.toList with
    | nil => rfl
    | cons c spelling =>
        have stops : ∀ d ∈ tail.head?, d ∉ spelling := by
          have behind := clear name member
          rwa [spelled] at behind
        rw [List.cons_append, List.isPrefixOf, List.isPrefixOf, isPrefixOf_append_stop stops]
  rw [same]

/-- Blanks that end inside the text end there still. -/
theorem blankLength_append (inComment : Bool) {text : List Char}
    (inside : blankLength inComment text < text.length) :
    blankLength inComment (text ++ tail) = blankLength inComment text := by
  fun_induction blankLength inComment text with
  | case1 => cases inside
  | case2 c rest ih =>
      rw [List.cons_append, blankLength, ih (Nat.lt_of_succ_lt_succ inside)]
  | case3 c rest blank ih =>
      rw [List.cons_append, blankLength, if_pos blank, ih (Nat.lt_of_succ_lt_succ inside)]
  | case4 c rest solid comment ih =>
      rw [List.cons_append, blankLength, if_neg solid, if_pos comment,
        ih (Nat.lt_of_succ_lt_succ inside)]
  | case5 c rest solid other => rw [List.cons_append, blankLength, if_neg solid, if_neg other]

/-- Blanks up to the end of the text take the line feed behind it along. -/
theorem blankLength_append_all (apart : OnNewLine tail) (solid : blankLength false (tail.drop 1) = 0)
    (inComment : Bool) {text : List Char} (all : blankLength inComment text = text.length) :
    blankLength inComment (text ++ tail) = text.length + min 1 tail.length := by
  fun_induction blankLength inComment text with
  | case1 inComment =>
      cases tail with
      | nil => cases inComment <;> rfl
      | cons c rest =>
          obtain rfl := apart c rfl
          change blankLength false rest = 0 at solid
          have one : min 1 (rest.length + 1) = 1 := by omega
          rw [List.nil_append, List.length_nil, List.length_cons, Nat.zero_add, one]
          cases inComment with
          | true =>
              change blankLength false rest + 1 = 1
              rw [solid]
          | false =>
              have blank : Unicode.isBlank '\n' := by decide
              rw [blankLength, if_pos blank, solid]
  | case2 c rest ih =>
      have inside := ih (Nat.succ.inj all)
      rw [List.cons_append, blankLength, inside, List.length_cons]
      omega
  | case3 c rest blank ih =>
      have inside := ih (Nat.succ.inj all)
      rw [List.cons_append, blankLength, if_pos blank, inside, List.length_cons]
      omega
  | case4 c rest other comment ih =>
      have inside := ih (Nat.succ.inj all)
      rw [List.cons_append, blankLength, if_neg other, if_pos comment, inside, List.length_cons]
      omega
  | case5 => cases all

end Lexemes

/-- A cursor before the same text with something behind it. -/
def Cursor.Continues (tail : List Char) (cursor longer : Cursor) : Prop :=
  longer.rest = cursor.rest ++ tail

namespace Cursor.Continues

variable {tail : List Char} {cursor longer : Cursor}

theorem advance (h : Continues tail cursor longer) {n : Nat} (inside : n ≤ cursor.rest.length) :
    Continues tail (cursor.advance n) (longer.advance n) := by
  unfold Continues at h ⊢
  rw [rest_advance, rest_advance, h, List.drop_append_of_le_length inside]

theorem advanceOver (h : Continues tail cursor longer) {lexeme : List Char}
    (inside : lexeme <+: cursor.rest) :
    Continues tail (cursor.advanceOver lexeme) (longer.advanceOver lexeme) :=
  h.advance inside.length_le

theorem peek (h : Continues tail cursor longer) {k : Nat} (inside : k < cursor.rest.length) :
    longer.peek k = cursor.peek k := by
  unfold Cursor.peek
  rw [h, List.getElem?_append_left inside]

end Cursor.Continues

namespace Recognizer

/-- What the longer of two texts has in common with the shorter one: what is declined, and the
tokens. -/
structure Carried {α : Type} (tail : List Char) (short long : Except SyntaxError (Scan α)) :
    Prop where
  declined : short = .ok .declined → long = .ok .declined
  token {kind : TokenKind α} {after : Cursor} {interner : Interner} :
    short = .ok (.token kind after interner) →
      ∃ later, long = .ok (.token kind later interner) ∧ after.Continues tail later

variable {α : Type} [Scalar α] [Numeral α]
variable {tail : List Char} {position : Position} {vocabulary : Vocabulary} {interner : Interner}
variable {cursor longer after : Cursor}

omit [Scalar α] in
theorem scanBound_append (apart : Breaks tail) (h : cursor.Continues tail longer) {x : α}
    (found : scanBound cursor = .ok (x, after)) :
    ∃ later, scanBound longer = .ok (x, later) ∧ after.Continues tail later := by
  unfold scanBound at found ⊢
  rw [h, read?_append apart]
  split at found
  · cases found
  next numeral read =>
    cases found
    exact ⟨_, rfl, h.advanceOver (DecimalNumeral.lexeme_prefix read)⟩

theorem advanceIf?_append {c : Char} (h : cursor.Continues tail longer)
    (found : cursor.advanceIf? c = some after) :
    ∃ later, longer.advanceIf? c = some later ∧ after.Continues tail later := by
  unfold Cursor.advanceIf? at found ⊢
  split at found
  next first =>
    have inside : 0 < cursor.rest.length := by
      unfold Cursor.peek at first
      cases text : cursor.rest with
      | nil => rw [text] at first; cases first
      | cons head rest => exact Nat.zero_lt_succ _
    cases found
    refine ⟨_, ?_, h.advance inside⟩
    rw [h.peek inside, if_pos first]
  · cases found

theorem opens_append (apart : Breaks tail) (h : cursor.Continues tail longer) :
    (longer.peek 0 == some 'I' && longer.peek 1 == some '{') =
      (cursor.peek 0 == some 'I' && cursor.peek 1 == some '{') := by
  unfold Cursor.peek
  rw [h]
  match cursor.rest with
  | [] =>
      cases tail with
      | nil => rfl
      | cons c rest =>
          have other : c ≠ 'I' := by
            rintro rfl
            exact absurd (apart 'I' rfl) (by decide +kernel)
          simp [other]
  | [first] =>
      cases tail with
      | nil => rfl
      | cons c rest => simp [(isBreak_iff.mp (apart c rfl)).2.2.2.2]
  | first :: second :: rest => rfl

omit [Scalar α] in
theorem IntervalLiteral.append (apart : Breaks tail) (h : cursor.Continues tail longer)
    {low high : α} (literal : IntervalLiteral cursor after low high) :
    ∃ later, IntervalLiteral longer later low high ∧ after.Continues tail later := by
  obtain ⟨first, second, third, hl, hc, hh, hb⟩ := literal.bounds
  have two : 2 ≤ cursor.rest.length := by
    have opens := literal.opens
    unfold Cursor.peek at opens
    match text : cursor.rest with
    | [] => rw [text] at opens; cases opens
    | [only] => rw [text] at opens; simp at opens
    | _ :: _ :: rest => simp
  obtain ⟨first', hl', h₁⟩ := scanBound_append apart (h.advance two) hl
  obtain ⟨second', hc', h₂⟩ := advanceIf?_append h₁ hc
  obtain ⟨third', hh', h₃⟩ := scanBound_append apart h₂ hh
  obtain ⟨later, hb', h₄⟩ := advanceIf?_append h₃ hb
  refine ⟨later, ⟨?_, ⟨first', second', third', hl', hc', hh', hb'⟩, ?_⟩, h₄⟩
  · rw [opens_append apart h]
    exact literal.opens
  · have ends := literal.ends
    unfold Cursor.peek at ends ⊢
    rw [h₄]
    cases text : after.rest with
    | nil =>
        cases tail with
        | nil => rfl
        | cons c rest =>
            exact (isBreak_iff.mp (apart c rfl)).2.1
    | cons first rest =>
        rw [text] at ends
        exact ends

theorem scanNumber_append (apart : Breaks tail) (h : cursor.Continues tail longer)
    (more : cursor.rest ≠ []) :
    Carried (α := α) tail (.ok (scanNumber position interner cursor))
      (.ok (scanNumber position interner longer)) := by
  have signs : (if position = .operand then sign? longer.rest else none) =
      (if position = .operand then sign? cursor.rest else none).map
        fun sign => (sign.1, sign.2 ++ tail) := by
    rw [h, sign?_append more]
    split <;> rfl
  unfold scanNumber
  rw [signs]
  cases sign : if position = .operand then sign? cursor.rest else none with
  | none =>
      dsimp only [Option.map_none]
      rw [h, read?_append apart]
      cases read : DecimalNumeral.read? cursor.rest with
      | none => exact ⟨id, fun absurd => (by cases absurd)⟩
      | some numeral =>
          refine ⟨fun absurd => (by cases absurd), fun found => ?_⟩
          cases found
          exact ⟨_, rfl, h.advanceOver (DecimalNumeral.lexeme_prefix read)⟩
  | some found =>
      obtain ⟨negative, rest⟩ := found
      dsimp only [Option.map_some]
      rw [read?_append apart]
      cases read : DecimalNumeral.read? rest with
      | none => exact ⟨id, fun absurd => (by cases absurd)⟩
      | some numeral =>
          refine ⟨fun absurd => (by cases absurd), fun found => ?_⟩
          cases found
          have signed : sign? cursor.rest = some (negative, rest) := by
            split at sign
            · exact sign
            · cases sign
          obtain ⟨c, text⟩ := sign?_some signed
          have inside : 1 ≤ cursor.rest.length := by rw [text]; simp
          refine ⟨_, rfl, (h.advance inside).advanceOver ?_⟩
          rw [Cursor.rest_advance, text]
          exact DecimalNumeral.lexeme_prefix read

omit [Scalar α] [Numeral α] in
theorem scanName_append (apart : Breaks tail) (h : cursor.Continues tail longer) :
    Carried (α := α) tail (.ok (scanName vocabulary interner cursor))
      (.ok (scanName vocabulary interner longer)) := by
  unfold scanName
  rw [h, nameLexeme_append apart]
  have start := nameLexeme_prefix cursor.rest
  cases spelled : nameLexeme cursor.rest with
  | nil => exact ⟨id, fun absurd => (by cases absurd)⟩
  | cons c lexeme =>
      rw [spelled] at start
      dsimp only
      split
      · refine ⟨fun absurd => (by cases absurd), fun found => ?_⟩
        cases found
        exact ⟨_, rfl, h.advanceOver start⟩
      · refine ⟨fun absurd => (by cases absurd), fun found => ?_⟩
        cases found
        exact ⟨_, rfl, h.advanceOver start⟩

omit [Scalar α] [Numeral α] in
theorem scanOperator_append (clear : vocabulary.Apart tail)
    (h : cursor.Continues tail longer) (more : cursor.rest ≠ []) :
    Carried (α := α) tail (.ok (scanOperator vocabulary interner cursor))
      (.ok (scanOperator vocabulary interner longer)) := by
  unfold scanOperator
  rw [h, Vocabulary.longestSymbol?_append clear more]
  cases found : vocabulary.longestSymbol? cursor.rest with
  | none => exact ⟨id, fun absurd => (by cases absurd)⟩
  | some symbol =>
      refine ⟨fun absurd => (by cases absurd), fun token => ?_⟩
      cases token
      exact ⟨_, rfl, h.advanceOver (Vocabulary.longestSymbol?_some found).2⟩

/-- A recognizer that declines a text, or makes a token of it, does so with more text behind it. -/
theorem scan_append {recognizer : Recognizer} (apart : Breaks tail) (clear : vocabulary.Apart tail)
    (h : cursor.Continues tail longer) (more : cursor.rest ≠ []) :
    Carried (α := α) tail (recognizer.scan position vocabulary interner cursor)
      (recognizer.scan position vocabulary interner longer) := by
  cases recognizer with
  | interval =>
      refine ⟨fun declined => ?_, fun found => ?_⟩
      · rcases scanInterval_ok declined with ⟨_, closed⟩ | ⟨_, low, high, _, scanned⟩
        · rw [← opens_append apart h] at closed
          exact scanInterval_of_closed closed
        · cases scanned
      · rcases scanInterval_ok found with ⟨declined, _⟩ | ⟨_, low, high, literal, same⟩
        · cases declined
        · cases same
          obtain ⟨later, literal', follows⟩ := literal.append apart h
          exact ⟨later, literal'.scan _, follows⟩
  | name => exact scanName_append apart h
  | number => exact scanNumber_append apart h more
  | operator => exact scanOperator_append clear h more
  | whitespace =>
      refine ⟨fun declined => ?_, fun token => ?_⟩
      · have none : blankLength false cursor.rest = 0 := by
          have scanned := Except.ok.inj declined
          unfold scanBlank at scanned
          split at scanned
          next none => exact none
          · cases scanned
        have inside : blankLength false cursor.rest < cursor.rest.length := by
          rw [none]
          exact List.length_pos_iff.mpr more
        change Except.ok (scanBlank longer) = _
        unfold scanBlank
        rw [h, blankLength_append false inside, none]
        rfl
      · have scanned := Except.ok.inj token
        unfold scanBlank at scanned
        split at scanned <;> cases scanned

theorem blankLength_ne_zero {c : Char} {rest : List Char} (blank : Unicode.isBlank c ∨ c = '#') :
    blankLength false (c :: rest) ≠ 0 := by
  rw [blankLength]
  rcases blank with blank | rfl
  · rw [if_pos blank]
    exact Nat.succ_ne_zero _
  · rw [if_neg (by decide), if_pos (by decide)]
    exact Nat.succ_ne_zero _

end Recognizer

namespace Lexer

open Recognizer

variable {α : Type} [Scalar α] [Numeral α]
variable {lexer : Lexer} {tail : List Char} {position : Position} {vocabulary : Vocabulary}
variable {interner : Interner} {cursor longer after : Cursor}

theorem firstScan_append {rules : List LexerRule} (apart : Breaks tail)
    (clear : vocabulary.Apart tail) (h : cursor.Continues tail longer) (more : cursor.rest ≠ []) :
    Carried (α := α) tail (firstScan position vocabulary interner cursor rules)
      (firstScan position vocabulary interner longer rules) := by
  induction rules with
  | nil => exact ⟨id, fun absurd => (by cases absurd)⟩
  | cons rule rules ih =>
      have first : Carried (α := α) tail (rule.recognizer.scan position vocabulary interner cursor)
          (rule.recognizer.scan position vocabulary interner longer) :=
        scan_append apart clear h more
      refine ⟨fun declined => ?_, fun token => ?_⟩
      · rw [firstScan] at declined ⊢
        split at declined
        next one =>
          rw [first.declined one]
          exact ih.declined declined
        next decided => exact absurd declined decided
      · rw [firstScan] at token
        split at token
        next one =>
          obtain ⟨later, scanned, follows⟩ := ih.token token
          refine ⟨later, ?_, follows⟩
          rw [firstScan, first.declined one]
          exact scanned
        next decided =>
          obtain ⟨later, scanned, follows⟩ := first.token token
          refine ⟨later, ?_, follows⟩
          rw [firstScan, scanned]

/-- Blanks of the shorter text are the beginning of blanks of the longer one. -/
theorem firstScan_blank_append {rules : List LexerRule} (apart : Breaks tail)
    (clear : vocabulary.Apart tail) (h : cursor.Continues tail longer)
    (found : firstScan position vocabulary interner cursor rules =
      (.ok (.blank after) : Except _ (Scan α))) :
    firstScan position vocabulary interner longer rules =
      (.ok (.blank (longer.advance (blankLength false longer.rest))) : Except _ (Scan α)) := by
  induction rules with
  | nil => cases found
  | cons rule rules ih =>
      obtain ⟨positive, _, _⟩ := firstScan_blank found
      have more : cursor.rest ≠ [] := by
        intro nothing
        rw [nothing] at positive
        exact positive rfl
      rw [firstScan] at found ⊢
      split at found
      next declined =>
        rw [(scan_append apart clear h more).declined declined]
        exact ih found
      next decided =>
        obtain ⟨whitespace, _, _⟩ := scan_blank found
        obtain ⟨c, rest, text⟩ := List.exists_cons_of_ne_nil more
        rw [text] at positive
        have starts : blankLength false longer.rest ≠ 0 := by
          rw [h, text, List.cons_append]
          exact blankLength_ne_zero (blankLength_cons positive)
        have scanned : rule.recognizer.scan position vocabulary interner longer =
            (.ok (.blank (longer.advance (blankLength false longer.rest))) : Except _ (Scan α)) := by
          rw [whitespace]
          change Except.ok (scanBlank longer) = _
          unfold scanBlank
          split
          next none => exact absurd none starts
          · rfl
        rw [scanned]

/-- A token of a text is read also from a longer one. -/
theorem next_append (apart : Breaks tail) (clear : vocabulary.Apart tail)
    (h : cursor.Continues tail longer) {r : Reading α}
    (read : lexer.next position vocabulary interner cursor = .ok r)
    (more : r.token.kind ≠ .endOfInput) :
    ∃ r' : Reading α, lexer.next position vocabulary interner longer = .ok r' ∧
      r'.token.kind = r.token.kind ∧ r'.interner = r.interner ∧
      r.cursor.Continues tail r'.cursor := by
  have lexes := lexes_of_next read
  clear read
  induction lexes generalizing longer with
  | atEnd finished => exact absurd rfl more
  | @token cursor after kind interner' nonempty found =>
      obtain ⟨later, scanned, follows⟩ := (firstScan_append apart clear h nonempty).token found
      have nonempty' : longer.rest ≠ [] := by
        rw [h]
        exact List.append_ne_nil_of_left_ne_nil nonempty tail
      exact ⟨_, (Lexes.token nonempty' scanned).next, rfl, rfl, follows⟩
  | @blank cursor after r found lexes ih =>
      have found' := firstScan_blank_append apart clear h found
      obtain ⟨_, rfl, _⟩ := firstScan_blank found
      -- a token follows, so the blanks end before the text does
      have inside : blankLength false cursor.rest < cursor.rest.length := by
        apply Nat.lt_of_le_of_ne (blankLength_le false cursor.rest)
        intro all
        have nothing : (cursor.advance (blankLength false cursor.rest)).rest = [] := by
          rw [Cursor.rest_advance, all, List.drop_length]
        obtain rfl := Except.ok.inj (lexes.next.symm.trans (next_of_end nothing))
        exact more rfl
      have same : blankLength false longer.rest = blankLength false cursor.rest := by
        rw [h, blankLength_append false inside]
      rw [same] at found'
      obtain ⟨r', read, rest⟩ := ih (h.advance (Nat.le_of_lt inside)) more
      exact ⟨r', (next_of_blank found').trans read, rest⟩

/-- Where a text ends, the longer one goes on with what is behind the line feed. -/
theorem next_append_end (apart : OnNewLine tail) (solid : blankLength false (tail.drop 1) = 0)
    (inline : vocabulary.Inline) (h : cursor.Continues tail longer) {r : Reading α}
    (read : lexer.next position vocabulary interner cursor = .ok r)
    (ends : r.token.kind = .endOfInput) :
    ∃ later : Cursor, (later.rest = tail ∨ later.rest = tail.drop 1) ∧
      lexer.next position vocabulary interner longer =
        (lexer.next position vocabulary interner later : Except _ (Reading α)) := by
  have lexes := lexes_of_next read
  clear read
  induction lexes generalizing longer with
  | @atEnd cursor finished =>
      refine ⟨longer, .inl ?_, rfl⟩
      rw [h, finished]
      rfl
  | @token cursor after kind interner' nonempty found =>
      obtain rfl : kind = .endOfInput := ends
      exact (firstScan_token found).2.1.elim
  | @blank cursor after r found lexes ih =>
      have found' := firstScan_blank_append apart.breaks (inline.apart apart) h found
      obtain ⟨_, rfl, _⟩ := firstScan_blank found
      by_cases inside : blankLength false cursor.rest < cursor.rest.length
      · have same : blankLength false longer.rest = blankLength false cursor.rest := by
          rw [h, blankLength_append false inside]
        rw [same] at found'
        obtain ⟨later, place, read⟩ := ih (h.advance (Nat.le_of_lt inside)) ends
        exact ⟨later, place, (next_of_blank found').trans read⟩
      · have all : blankLength false cursor.rest = cursor.rest.length :=
          Nat.le_antisymm (blankLength_le false cursor.rest) (Nat.le_of_not_lt inside)
        -- the last blanks, or the comment they end with, take in the line feed behind the text
        refine ⟨longer.advance (blankLength false longer.rest), .inr ?_, next_of_blank found'⟩
        rw [Cursor.rest_advance, h, blankLength_append_all apart solid false all,
          List.drop_append, List.drop_eq_nil_of_le (Nat.le_add_right _ _), List.nil_append,
          Nat.add_sub_cancel_left]
        cases tail with
        | nil => rfl
        | cons c rest => rw [List.length_cons, Nat.min_eq_left (Nat.succ_le_succ (Nat.zero_le _))]

theorem not_mem_of_isIdentifier {text : List Char} (h : isIdentifier text) {c : Char}
    (other : isNamePart c = false) : c ∉ text := by
  have start : isNameStart c = false := (Bool.or_eq_false_iff.mp other).1
  cases text with
  | nil => exact List.not_mem_nil
  | cons first rest =>
      rw [isIdentifier, Bool.and_eq_true, List.all_eq_true] at h
      intro member
      rcases List.mem_cons.mp member with rfl | member
      · rw [start] at h
        exact Bool.false_ne_true h.1
      · have part := h.2 c member
        rw [other] at part
        exact Bool.false_ne_true part

/-- Whatever is not an operator of the standard grammar is spelled like a name. -/
theorem isIdentifier_or_standard
    (same : vocabulary.symbols = Vocabulary.symbols OperatorTable.standard.keys) {name : String}
    (member : name ∈ vocabulary) :
    isIdentifier name.toList ∨ name ∈ OperatorTable.standard.keys := by
  cases identifier : isIdentifier name.toList with
  | true => exact .inl rfl
  | false =>
      have symbol : name ∈ vocabulary.symbols :=
        List.mem_filter.mpr ⟨member, by rw [identifier]; rfl⟩
      rw [same] at symbol
      exact .inr (List.mem_filter.mp symbol).1

/-- The operators of the standard grammar, and whatever is spelled like a name, are in one line. -/
theorem inline_of_symbols
    (same : vocabulary.symbols = Vocabulary.symbols OperatorTable.standard.keys) :
    vocabulary.Inline := by
  have standard : ∀ name ∈ OperatorTable.standard.keys, '\n' ∉ name.toList := by decide
  intro name member
  rcases isIdentifier_or_standard same member with identifier | known
  · exact not_mem_of_isIdentifier identifier (by decide)
  · exact standard name known

theorem apart_of_symbols
    (same : vocabulary.symbols = Vocabulary.symbols OperatorTable.standard.keys) {c : Char}
    (other : isNamePart c = false)
    (standard : ∀ name ∈ OperatorTable.standard.keys, c ∉ name.toList.drop 1) (more : List Char) :
    vocabulary.Apart (c :: more) := by
  rintro name member _ ⟨rfl⟩ within
  rcases isIdentifier_or_standard same member with identifier | known
  · exact not_mem_of_isIdentifier identifier other (List.mem_of_mem_drop within)
  · exact standard name known within

theorem next_separator {more : List Char}
    (same : vocabulary.symbols = Vocabulary.symbols OperatorTable.standard.keys)
    (text : cursor.rest = ';' :: more) :
    Lexer.standard.next (α := α) position vocabulary interner cursor =
      .ok ⟨⟨.operator ";", cursor.location⟩, cursor.advance 1, interner⟩ := by
  obtain ⟨passed, rest, location, mark⟩ := cursor
  obtain rfl : rest = ';' :: more := text
  have spelled : vocabulary.longestSymbol? (';' :: more) = some ";" := by
    rw [Vocabulary.longestSymbol?_congr same]
    rfl
  let cursor : Cursor := ⟨passed, ';' :: more, location, mark⟩
  have interval : Recognizer.interval.scan position vocabulary interner cursor =
      (.ok .declined : Except _ (Scan α)) := rfl
  have name : Recognizer.name.scan position vocabulary interner cursor =
      (.ok .declined : Except _ (Scan α)) := rfl
  have number : Recognizer.number.scan position vocabulary interner cursor =
      (.ok .declined : Except _ (Scan α)) := by
    cases position <;> rfl
  have operator : Recognizer.operator.scan position vocabulary interner cursor =
      (.ok (.token (.operator ";") (cursor.advance 1) interner) : Except _ (Scan α)) := by
    change Except.ok (scanOperator vocabulary interner cursor) = _
    unfold scanOperator
    rw [spelled]
    rfl
  have found : firstScan (α := α) position vocabulary interner cursor Lexer.standard.rules =
      .ok (.token (.operator ";") (cursor.advance 1) interner) := by
    change firstScan position vocabulary interner cursor
      [⟨"interval", .interval, 60⟩, ⟨"name", .name, 50⟩, ⟨"number", .number, 20⟩,
        ⟨"operator", .operator, 10⟩, ⟨"whitespace", .whitespace, 0⟩] = _
    simp only [firstScan, interval, name, number, operator]
  exact (Lexes.token (List.cons_ne_nil _ _) found).next

/-- The code points of white space. -/
def blankCodes : List Nat :=
  [9, 10, 11, 12, 13, 32, 133, 160, 5760, 8192, 8193, 8194, 8195, 8196, 8197, 8198, 8199, 8200, 8201,
    8202, 8232, 8233, 8239, 8287, 12288]

theorem mem_blankCodes {c : Char} (blank : Unicode.isBlank c) : c.toNat ∈ blankCodes := by
  simp only [Unicode.isBlank, Unicode.blankRanges, Unicode.RangeTable.contains, Bool.and_eq_true,
    Bool.or_eq_true, decide_eq_true_eq, Bool.false_eq_true, or_false] at blank
  simp only [blankCodes, List.mem_cons, List.not_mem_nil, or_false]
  omega

theorem isNameStart_of_isBlank {c : Char} (blank : Unicode.isBlank c) : isNameStart c = false := by
  have letters : ∀ n ∈ blankCodes, Unicode.letterRanges.contains n = false := by decide +kernel
  have underscore : (c == '_') = false := by
    rw [beq_eq_false_iff_ne]
    rintro rfl
    exact absurd blank (by decide)
  rw [isNameStart, underscore, Bool.false_or]
  exact letters c.toNat (mem_blankCodes blank)

/-- No operator of a vocabulary begins where blanks do, unless it is spelled like a name. -/
def Unspaced (vocabulary : Vocabulary) : Prop :=
  ∀ c rest, Unicode.isBlank c ∨ c = '#' → vocabulary.longestSymbol? (c :: rest) = none

theorem unspaced_of_first (clear : "" ∉ vocabulary) (first : ∀ name ∈ vocabulary,
    ∀ c ∈ name.toList.head?, ¬ (Unicode.isBlank c ∨ c = '#')) : Unspaced vocabulary := by
  intro c rest blank
  cases found : vocabulary.longestSymbol? (c :: rest) with
  | none => rfl
  | some name =>
      obtain ⟨known, fits⟩ := Vocabulary.longestSymbol?_some found
      have nonempty : name.toList ≠ [] := by
        rw [ne_eq, String.toList_eq_nil_iff]
        rintro rfl
        exact clear known
      obtain ⟨d, more, spelling⟩ := List.exists_cons_of_ne_nil nonempty
      rw [spelling, List.cons_prefix_cons] at fits
      obtain ⟨rfl, _⟩ := fits
      exact absurd blank (first name known d (by rw [spelling]; rfl))

theorem unspaced_of_symbols
    (same : vocabulary.symbols = Vocabulary.symbols OperatorTable.standard.keys) :
    Unspaced vocabulary := by
  have solid : OperatorTable.standard.keys.all fun name =>
      name.toList.all fun c => !(Unicode.isBlank c || c == '#') := by decide +kernel
  have unspaced : Unspaced OperatorTable.standard.keys := by
    refine unspaced_of_first (by decide) fun name known c first => ?_
    have apart := List.all_eq_true.mp (List.all_eq_true.mp solid name known) c
      (List.mem_of_head? first)
    simpa using apart
  intro c rest blank
  rw [Vocabulary.longestSymbol?_congr same]
  exact unspaced c rest blank

theorem firstScan_of_blank (unspaced : Unspaced vocabulary)
    (blank : blankLength false cursor.rest ≠ 0) :
    firstScan (α := α) position vocabulary interner cursor Lexer.standard.rules =
      .ok (.blank (cursor.advance (blankLength false cursor.rest))) := by
  have number : Recognizer.number.scan position vocabulary interner cursor =
      (.ok .declined : Except _ (Scan α)) := congrArg Except.ok (scanNumber_of_blank blank)
  have whitespace : Recognizer.whitespace.scan position vocabulary interner cursor =
      (.ok (.blank (cursor.advance (blankLength false cursor.rest))) : Except _ (Scan α)) := by
    change Except.ok (scanBlank cursor) = _
    unfold scanBlank
    split
    next none => exact absurd none blank
    · rfl
  obtain ⟨passed, rest, location, mark⟩ := cursor
  cases rest with
  | nil => exact absurd rfl blank
  | cons c rest =>
      have first := blankLength_cons blank
      have start : isNameStart c = false := by
        rcases first with blank | rfl
        · exact isNameStart_of_isBlank blank
        · decide
      have interval : Recognizer.interval.scan position vocabulary interner
          ⟨passed, c :: rest, location, mark⟩ = (.ok .declined : Except _ (Scan α)) := by
        have other : (some c == some 'I') = false := by
          rw [beq_eq_false_iff_ne]
          rintro letter
          cases letter
          cases start
        apply scanInterval_of_closed
        unfold Cursor.peek
        rw [List.getElem?_cons_zero, other]
        rfl
      have name : Recognizer.name.scan position vocabulary interner
          ⟨passed, c :: rest, location, mark⟩ = (.ok .declined : Except _ (Scan α)) := by
        have none : nameLexeme (c :: rest) = [] := by
          rw [nameLexeme, start]
          rfl
        change Except.ok (scanName _ _ _) = _
        unfold scanName
        dsimp only
        rw [none]
      have operator : Recognizer.operator.scan position vocabulary interner
          ⟨passed, c :: rest, location, mark⟩ = (.ok .declined : Except _ (Scan α)) := by
        change Except.ok (scanOperator _ _ _) = _
        unfold scanOperator
        dsimp only
        rw [unspaced c rest first]
      change firstScan position vocabulary interner _
        [⟨"interval", .interval, 60⟩, ⟨"name", .name, 50⟩, ⟨"number", .number, 20⟩,
          ⟨"operator", .operator, 10⟩, ⟨"whitespace", .whitespace, 0⟩] = _
      simp only [firstScan, interval, name, number, operator, whitespace]

/-- All blanks before a token are passed over at once. -/
theorem next_skip_unspaced (unspaced : Unspaced vocabulary) (cursor : Cursor) :
    Lexer.standard.next (α := α) position vocabulary interner cursor =
      Lexer.standard.next position vocabulary interner
        (cursor.advance (blankLength false cursor.rest)) := by
  by_cases none : blankLength false cursor.rest = 0
  · rw [none, Cursor.advance]
  · exact next_of_blank (firstScan_of_blank unspaced none)

theorem next_isBlank_unspaced {c : Char} {rest : List Char} (unspaced : Unspaced vocabulary)
    (first : Unicode.isBlank c) (text : cursor.rest = c :: rest) :
    Lexer.standard.next (α := α) position vocabulary interner cursor =
      Lexer.standard.next position vocabulary interner (cursor.advance 1) := by
  have later : (cursor.advance 1).rest = rest := by rw [Cursor.rest_advance, text]; rfl
  have length : blankLength false cursor.rest = blankLength false rest + 1 := by
    rw [text, blankLength, if_pos first]
  rw [next_skip_unspaced unspaced cursor, next_skip_unspaced unspaced (cursor.advance 1),
    Cursor.advance_advance, later, length, Nat.add_comm]

theorem next_skip
    (same : vocabulary.symbols = Vocabulary.symbols OperatorTable.standard.keys) (cursor : Cursor) :
    Lexer.standard.next (α := α) position vocabulary interner cursor =
      Lexer.standard.next position vocabulary interner
        (cursor.advance (blankLength false cursor.rest)) :=
  next_skip_unspaced (unspaced_of_symbols same) cursor

theorem next_isBlank {c : Char} {rest : List Char}
    (same : vocabulary.symbols = Vocabulary.symbols OperatorTable.standard.keys)
    (first : Unicode.isBlank c) (text : cursor.rest = c :: rest) :
    Lexer.standard.next (α := α) position vocabulary interner cursor =
      Lexer.standard.next position vocabulary interner (cursor.advance 1) :=
  next_isBlank_unspaced (unspaced_of_symbols same) first text

end Lexer

end IntervalCalc
