import IntervalCalc.Proofs.Lexing.Fronts

/-!
Words of any vocabulary. With a blank behind it, an operator is read as itself if it is spelled like
a name or a symbol. In front of a text, the two positions differ only about a number with a sign:
where an operand has ended, its sign is an operator, or nothing.
-/

namespace IntervalCalc

/-- The text ends, or goes on with a blank. -/
def AtBlank (tail : List Char) : Prop :=
  ∀ c ∈ tail.head?, c = ' '

theorem AtBlank.nil : AtBlank [] :=
  nofun

theorem AtBlank.blank (tail : List Char) : AtBlank (' ' :: tail) := by
  rintro c ⟨rfl⟩
  rfl

theorem breaks_blank (tail : List Char) : Breaks (' ' :: tail) := by
  rintro c ⟨rfl⟩
  decide +kernel

section AtBlank

variable {tail : List Char} (blank : AtBlank tail)

include blank

theorem AtBlank.parted : Parted tail := by
  intro c first
  obtain rfl := blank c first
  decide

theorem AtBlank.delimited : Delimited tail := by
  intro c first
  obtain rfl := blank c first
  decide

theorem AtBlank.no_bracket : tail.head? ≠ some '\x7b' := by
  intro first
  cases blank _ first

end AtBlank

/-- No operator of a vocabulary is empty, or has white space or the beginning of a comment in it. -/
structure Vocabulary.Solid (vocabulary : Vocabulary) : Prop where
  clear : "" ∉ vocabulary
  each : ∀ name ∈ vocabulary, ∀ c ∈ name.toList, isSolid c

instance (vocabulary : Vocabulary) : Decidable vocabulary.Solid :=
  decidable_of_iff ("" ∉ vocabulary ∧ vocabulary.all fun name => name.toList.all isSolid) <| by
    simp only [List.all_eq_true]
    exact ⟨fun h => ⟨h.1, h.2⟩, fun h => ⟨h.clear, h.each⟩⟩

namespace Vocabulary.Solid

variable {vocabulary : Vocabulary} (solid : vocabulary.Solid)

include solid

theorem unspaced : Lexer.Unspaced vocabulary := by
  refine Lexer.unspaced_of_first solid.clear fun name member c first blank => ?_
  have other := solid.each name member c (List.mem_of_head? first)
  rw [isSolid, Bool.not_eq_true', Bool.or_eq_false_iff] at other
  rcases blank with blank | rfl
  · rw [blank] at other
    cases other.1
  · cases other.2

theorem apart (tail : List Char) : vocabulary.Apart (' ' :: tail) := by
  rintro name member _ ⟨rfl⟩ within
  exact absurd (solid.each name member ' ' (List.mem_of_mem_drop within)) (by decide)

/-- Up to a blank, a symbol is the longest one that the text begins with. -/
theorem longestSymbol?_at_blank {name : String} (known : name ∈ vocabulary)
    (symbol : ¬ isIdentifier name.toList) {tail : List Char} (blank : AtBlank tail) :
    vocabulary.longestSymbol? (name.toList ++ tail) = some name := by
  have spells : vocabulary.Spells name.toList := by
    refine ⟨?_, symbol⟩
    rw [String.ofList_toList]
    exact known
  rw [longestSymbol?_of_longest ⟨List.prefix_append _ _, spells, ?_⟩, String.ofList_toList]
  intro other begins spells
  have within := solid.each _ spells.1
  rw [String.toList_ofList] at within
  exact (blank.parted.begins within begins).length_le

end Vocabulary.Solid

/-- An operator that can be read: a name, or a symbol that begins neither like a name nor like a
number. -/
def isReadable (name : String) : Bool :=
  isIdentifier name.toList || name.toList.head?.any fun c => !(isNameStart c || c.isDigit)

/-- A sign with a digit behind it. -/
def isSigned : List Char → Bool
  | sign :: digit :: _ => (sign == '+' || sign == '-') && digit.isDigit
  | _ => false

theorem plain_of_isSigned {sign : Char} {rest : List Char} (signed : isSigned (sign :: rest)) :
    isNameStart sign = false ∧ sign.isDigit = false := by
  cases rest with
  | nil => cases signed
  | cons digit rest =>
      rw [isSigned, Bool.and_eq_true, Bool.or_eq_true] at signed
      rcases signed.1 with plus | minus
      · obtain rfl := eq_of_beq plus
        decide
      · obtain rfl := eq_of_beq minus
        decide

/-- The text behind the white space and the comments that it begins with. -/
def front (text : List Char) : List Char :=
  text.drop (blankLength false text)

theorem blankLength_drop (inComment : Bool) (text : List Char) :
    blankLength false (text.drop (blankLength inComment text)) = 0 := by
  fun_induction blankLength inComment text with
  | case1 => rfl
  | case2 c rest ih => exact ih
  | case3 c rest blank ih => exact ih
  | case4 c rest solid comment ih => exact ih
  | case5 c rest solid other => rw [List.drop_zero, blankLength, if_neg solid, if_neg other]

theorem blankLength_of_solid {text : List Char} (solid : ∀ c ∈ text.head?, isSolid c) :
    blankLength false text = 0 := by
  cases text with
  | nil => rfl
  | cons c rest =>
      have other := solid c rfl
      rw [isSolid, Bool.not_eq_true', Bool.or_eq_false_iff] at other
      rw [blankLength, other.1, other.2]
      rfl

theorem blankLength_lt {text : List Char} (more : front text ≠ []) :
    blankLength false text < text.length :=
  Nat.lt_of_not_le fun all => more (List.drop_eq_nil_of_le all)

theorem front_append {text : List Char} (more : front text ≠ []) (tail : List Char) :
    front (text ++ tail) = front text ++ tail := by
  have inside := blankLength_lt more
  rw [front, front, blankLength_append false inside,
    List.drop_append_of_le_length (Nat.le_of_lt inside)]

theorem isSigned_append_blank (text tail : List Char) :
    isSigned (text ++ ' ' :: tail) = isSigned text := by
  match text with
  | [] => cases tail <;> rfl
  | [sign] => exact Bool.and_false _
  | sign :: digit :: rest => rfl

namespace Recognizer

variable {α : Type} [Scalar α] [Numeral α] {interner : Interner} {cursor : Cursor}

theorem scanNumber_at_operator :
    scanNumber .operator interner cursor =
      ((DecimalNumeral.read? cursor.rest).elim .declined fun numeral =>
        .token (.literal (.number numeral.value)) (cursor.advanceOver numeral.lexeme) interner :
          Scan α) := by
  unfold scanNumber
  dsimp only
  rw [if_neg nofun]
  cases DecimalNumeral.read? cursor.rest <;> rfl

/-- Without a sign, a number is read alike in both positions. -/
theorem scanNumber_of_unsigned (unsigned : isSigned cursor.rest = false) :
    scanNumber .operator interner cursor = (scanNumber .operand interner cursor : Scan α) := by
  rw [scanNumber_at_operator]
  unfold scanNumber
  rw [if_pos rfl]
  cases signed : sign? cursor.rest with
  | none => cases DecimalNumeral.read? cursor.rest <;> rfl
  | some sign =>
      obtain ⟨negative, rest⟩ := sign
      obtain ⟨c, text⟩ := sign?_some signed
      have plain : c.isDigit = false ∧ (c == '+' || c == '-') := by
        rw [text] at signed
        unfold sign? at signed
        split at signed
        next same => cases same; exact ⟨rfl, rfl⟩
        next same => cases same; exact ⟨rfl, rfl⟩
        · cases signed
      have none : DecimalNumeral.read? rest = none := by
        cases rest with
        | nil => rfl
        | cons d more =>
            rw [text, isSigned, plain.2, Bool.true_and] at unsigned
            exact read?_of_not_isDigit unsigned
      dsimp only
      rw [none, text, read?_of_not_isDigit plain.1]
      rfl

theorem scanNumber_cases {position : Position} :
    scanNumber position interner cursor = (.declined : Scan α) ∨ ∃ kind n,
      scanNumber position interner cursor = (.token kind (cursor.advance n) interner : Scan α) := by
  obtain ⟨rest, split⟩ := signAhead_prefix position cursor.rest
  rw [scanNumber_eq split.symm]
  cases DecimalNumeral.read? rest with
  | none => exact .inl rfl
  | some numeral => exact .inr ⟨_, _, rfl⟩

end Recognizer

namespace Lexer

open Recognizer

variable {α : Type} [Scalar α] [Numeral α]
variable {vocabulary : Vocabulary} {interner : Interner} {cursor : Cursor}

section Readable

variable (solid : vocabulary.Solid) {name : String} (known : name ∈ vocabulary)
variable (readable : isReadable name) {tail : List Char} (blank : AtBlank tail)
variable (text : cursor.rest = name.toList ++ tail)

include solid known readable blank text

/-- A symbol is what the recognizers of names leave to the others, and the longest one. -/
theorem symbol_ahead (symbol : ¬ isIdentifier name.toList) :
    ∃ c rest, cursor.rest = c :: rest ∧ isNameStart c = false ∧ c.isDigit = false ∧
      vocabulary.longestSymbol? cursor.rest = some name := by
  rw [isReadable, Bool.eq_false_iff.mpr symbol, Bool.false_or] at readable
  cases spelling : name.toList with
  | nil =>
      rw [spelling] at readable
      cases readable
  | cons c rest =>
      rw [spelling] at readable
      obtain ⟨start, digit⟩ := Bool.or_eq_false_iff.mp ((Bool.not_eq_true' _).mp readable)
      refine ⟨c, rest ++ tail, ?_, start, digit, ?_⟩
      · rw [text, spelling]
        rfl
      · rw [text]
        exact solid.longestSymbol?_at_blank known symbol blank

theorem next_readable :
    Lexer.standard.next (α := α) .operator vocabulary interner cursor =
      .ok ⟨⟨.operator name, cursor.location⟩, cursor.advance name.toList.length, interner⟩ := by
  by_cases symbol : isIdentifier name.toList
  · exact next_keyword symbol blank.delimited text (fun _ => blank.no_bracket)
      (List.contains_iff_mem.mpr known)
  · obtain ⟨c, rest, begins, start, digit, longest⟩ :=
      symbol_ahead solid known readable blank text symbol
    refine next_operator begins start longest ?_
    rw [scanNumber_at_operator, begins, read?_of_not_isDigit digit]
    rfl

/-- Where an operand may begin, the symbol may be read as a number. -/
theorem next_readable_operand : ∃ r : Reading α,
    Lexer.standard.next .operand vocabulary interner cursor = .ok r ∧ r.interner = interner := by
  by_cases symbol : isIdentifier name.toList
  · exact ⟨_, next_keyword symbol blank.delimited text (fun _ => blank.no_bracket)
      (List.contains_iff_mem.mpr known), rfl⟩
  · obtain ⟨c, rest, begins, start, digit, longest⟩ :=
      symbol_ahead solid known readable blank text symbol
    rcases @scanNumber_cases α _ _ interner cursor .operand with declined | ⟨kind, n, number⟩
    · exact ⟨_, next_operator begins start longest declined, rfl⟩
    · exact ⟨_, next_of_scanNumber begins start number, rfl⟩

end Readable

theorem firstScan_of_unsigned (unsigned : isSigned cursor.rest = false) (rules : List LexerRule) :
    firstScan .operator vocabulary interner cursor rules =
      (firstScan .operand vocabulary interner cursor rules : Except _ (Scan α)) := by
  have same (recognizer : Recognizer) : recognizer.scan .operator vocabulary interner cursor =
      (recognizer.scan .operand vocabulary interner cursor : Except _ (Scan α)) := by
    cases recognizer with
    | number => exact congrArg Except.ok (scanNumber_of_unsigned unsigned)
    | _ => rfl
  induction rules with
  | nil => rfl
  | cons rule rules ih => rw [firstScan, firstScan, same, ih]

section Front

variable (unspaced : Unspaced vocabulary)

include unspaced

/-- Where there is a word, it is in front. -/
theorem front_ne_nil {position : Position} {r : Reading α}
    (read : Lexer.standard.next position vocabulary interner cursor = .ok r)
    (more : r.token.kind ≠ .endOfInput) : front cursor.rest ≠ [] := by
  intro none
  rw [next_skip_unspaced unspaced] at read
  rw [front, ← Cursor.rest_advance] at none
  rw [(Lexes.atEnd none).next] at read
  cases read
  exact more rfl

/-- An operand that is no number with a sign is read alike where an operand has ended. -/
theorem next_of_unsigned (unsigned : isSigned (front cursor.rest) = false) {r : Reading α}
    (read : Lexer.standard.next .operand vocabulary interner cursor = .ok r) :
    Lexer.standard.next .operator vocabulary interner cursor = .ok r := by
  rw [next_skip_unspaced unspaced] at read ⊢
  have place := Cursor.rest_advance cursor (blankLength false cursor.rest)
  rw [front, ← place] at unsigned
  cases lexes_of_next read with
  | atEnd finished => exact (Lexes.atEnd finished).next
  | token more found =>
      rw [← firstScan_of_unsigned unsigned] at found
      exact (Lexes.token more found).next
  | blank found _ =>
      obtain ⟨some, _⟩ := firstScan_blank found
      rw [place, blankLength_drop] at some
      exact absurd rfl some

variable {sign : Char} {rest : List Char} (text : front cursor.rest = sign :: rest)
variable (signed : isSigned (sign :: rest))

include text signed

/-- Where an operand has ended, the sign of a number is left to the operators. -/
theorem next_of_signed {name : String}
    (longest : vocabulary.longestSymbol? (sign :: rest) = some name) : ∃ r : Reading α,
      Lexer.standard.next .operator vocabulary interner cursor = .ok r ∧
        r.token.kind = .operator name ∧ r.interner = interner := by
  obtain ⟨start, digit⟩ := plain_of_isSigned signed
  rw [next_skip_unspaced unspaced]
  rw [front, ← Cursor.rest_advance] at text
  generalize cursor.advance (blankLength false cursor.rest) = later at text
  refine ⟨_, next_operator text start (text.symm ▸ longest) ?_, rfl, rfl⟩
  rw [scanNumber_at_operator, text, read?_of_not_isDigit digit]
  rfl

/-- If no operator begins with it, there is nothing to read. -/
theorem next_of_lone_sign (lone : vocabulary.longestSymbol? (sign :: rest) = none) :
    Lexer.standard.next .operator vocabulary interner cursor =
      (.error ⟨.unexpectedCharacter sign,
        (cursor.advance (blankLength false cursor.rest)).location⟩ : Except _ (Reading α)) := by
  obtain ⟨start, digit⟩ := plain_of_isSigned signed
  rw [next_skip_unspaced unspaced]
  have solid := blankLength_drop false cursor.rest
  rw [front, ← Cursor.rest_advance] at text
  rw [← Cursor.rest_advance] at solid
  generalize cursor.advance (blankLength false cursor.rest) = later at text solid
  have number : Recognizer.number.scan .operator vocabulary interner later =
      (.ok .declined : Except _ (Scan α)) := by
    change Except.ok (scanNumber _ _ _) = _
    rw [scanNumber_at_operator, text, read?_of_not_isDigit digit]
    rfl
  have operator : Recognizer.operator.scan .operator vocabulary interner later =
      (.ok .declined : Except _ (Scan α)) := by
    change Except.ok (scanOperator _ _ _) = _
    rw [scanOperator, text, lone]
  have blank : Recognizer.whitespace.scan .operator vocabulary interner later =
      (.ok .declined : Except _ (Scan α)) := by
    change Except.ok (scanBlank _) = _
    rw [scanBlank, solid]
    rfl
  refine next_of_declined text ((firstScan_of_sign text start).trans ?_)
  simp only [firstScan, number, operator, blank]

end Front

end Lexer

end IntervalCalc
