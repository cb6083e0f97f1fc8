import IntervalCalc.Proofs.Lexing.Division

/-!
The lexeme at the front of a text. No word has white space or a comment in it, so a word is read
alike from two texts that share it, if one of them has blanks where the other one goes on in any way.
What is read at its place in the other position is alike as well.
-/

namespace IntervalCalc

/-- A character that is neither white space nor the beginning of a comment. -/
def isSolid (c : Char) : Bool :=
  !(Unicode.isBlank c || c == '#')

theorem isSolid_of_isBlank {c : Char} (blank : Unicode.isBlank c) : isSolid c = false := by
  rw [isSolid, blank]
  rfl

/-- The text ends, or goes on with white space or a comment. -/
def Parted (tail : List Char) : Prop :=
  ∀ c ∈ tail.head?, isSolid c = false

theorem Blanks.parted {inComment : Bool} {run : List Char} (blanks : Blanks inComment run) :
    Parted run := by
  cases blanks with
  | none => intro c absurd; cases absurd
  | blank first _ => rintro c ⟨rfl⟩; exact isSolid_of_isBlank first
  | comment => rintro c ⟨rfl⟩; decide
  | openComment => rintro c ⟨rfl⟩; decide

theorem Parted.append {run : List Char} (parted : Parted run) (some : run ≠ []) (rest : List Char) :
    Parted (run ++ rest) := by
  obtain ⟨c, run, rfl⟩ := List.exists_cons_of_ne_nil some
  exact parted

/-- What is solid does not go on behind the place where a text is parted. -/
theorem Parted.begins {front tail other : List Char} (parted : Parted tail)
    (solid : ∀ c ∈ other, isSolid c) (begins : other <+: front ++ tail) : other <+: front := by
  induction front generalizing other with
  | nil =>
      cases other with
      | nil => exact List.prefix_rfl
      | cons c other =>
          obtain ⟨rest, rfl⟩ := begins
          have first := parted c rfl
          rw [solid c List.mem_cons_self] at first
          cases first
  | cons c front ih =>
      cases other with
      | nil => exact List.nil_prefix
      | cons d other =>
          rw [List.cons_append, List.cons_prefix_cons] at begins
          rw [List.forall_mem_cons] at solid
          exact List.cons_prefix_cons.mpr ⟨begins.1, ih solid.2 begins.2⟩

theorem solid_of_isNamePart {c : Char} (part : isNamePart c) : isSolid c := by
  rw [isSolid, Bool.not_eq_true', Bool.or_eq_false_iff]
  constructor
  · rw [Bool.eq_false_iff]
    intro blank
    have numbers : ∀ n ∈ Lexer.blankCodes, Unicode.numberRanges.contains n = false := by
      decide +kernel
    have number : Unicode.isNumber c = false := numbers c.toNat (Lexer.mem_blankCodes blank)
    have start := Lexer.isNameStart_of_isBlank blank
    unfold isNameStart at start
    rw [isNamePart, start, number] at part
    cases part
  · rw [beq_eq_false_iff_ne]
    rintro rfl
    exact absurd part (by decide)

theorem isAlphanumeric_of_not_solid {c : Char} (blank : isSolid c = false) :
    Unicode.isAlphanumeric c = false := by
  have codes : ∀ n ∈ Lexer.blankCodes, Unicode.alphanumericRanges.contains n = false := by
    decide +kernel
  rw [isSolid, Bool.not_eq_false', Bool.or_eq_true] at blank
  rcases blank with blank | hash
  · exact codes c.toNat (Lexer.mem_blankCodes blank)
  · obtain rfl := eq_of_beq hash
    decide +kernel

theorem solid_of_isDigit {c : Char} (digit : c.isDigit) : isSolid c := by
  have digits : decimalDigits.all isSolid := by decide
  exact List.all_eq_true.mp digits c (mem_decimalDigits digit)

theorem DecimalNumeral.Written.solid {numeral : DecimalNumeral} (written : numeral.Written) :
    ∀ c ∈ numeral.lexeme, isSolid c := by
  obtain ⟨whole, fraction⟩ := numeral
  have digits : ∀ c ∈ whole, isSolid c := fun c member => solid_of_isDigit (written.whole c member)
  cases fraction with
  | nil => exact digits
  | cons d more =>
      change ∀ c ∈ whole ++ '.' :: d :: more, isSolid c
      rw [List.forall_mem_append, List.forall_mem_cons]
      exact ⟨digits, by decide, fun c member => solid_of_isDigit (written.fraction c member)⟩

theorem solid_of_isIdentifier {lexeme : List Char} (identifier : isIdentifier lexeme) :
    ∀ c ∈ lexeme, isSolid c := by
  cases lexeme with
  | nil => intro c absurd; cases absurd
  | cons first rest =>
      rw [isIdentifier, Bool.and_eq_true, List.all_eq_true] at identifier
      obtain ⟨start, parts⟩ := identifier
      have part : isNamePart first := by
        rw [isNameStart] at start
        rw [isNamePart, start, Bool.true_or]
      rw [List.forall_mem_cons]
      exact ⟨solid_of_isNamePart part, fun c member => solid_of_isNamePart (parts c member)⟩

section Symbols

variable {vocabulary vocabulary' : Vocabulary} {position : Position} {sort : LexemeClass}
variable {text lexeme : List Char}

theorem Vocabulary.spells_iff :
    vocabulary.Spells lexeme ↔ String.ofList lexeme ∈ vocabulary.symbols := by
  rw [Vocabulary.symbols, List.mem_filter, String.toList_ofList, Bool.not_eq_true', Bool.eq_false_iff]
  exact Iff.rfl

theorem LexemeClass.spells_congr (same : vocabulary.symbols = vocabulary'.symbols) :
    sort.Spells position vocabulary lexeme ↔ sort.Spells position vocabulary' lexeme := by
  cases sort with
  | operator =>
      change vocabulary.Spells lexeme ↔ vocabulary'.Spells lexeme
      rw [Vocabulary.spells_iff, Vocabulary.spells_iff, same]
  | _ => exact Iff.rfl

theorem Decides.congr (same : vocabulary.symbols = vocabulary'.symbols)
    (h : Decides position vocabulary sort text lexeme) :
    Decides position vocabulary' sort text lexeme :=
  ⟨h.unmarked, fun other passed text begins spells =>
      h.passed other passed text begins ((LexemeClass.spells_congr same).mpr spells),
    h.longest.begins, (LexemeClass.spells_congr same).mp h.longest.fits,
    fun text begins spells =>
      h.longest.most text begins ((LexemeClass.spells_congr same).mpr spells)⟩

end Symbols

section Standard

variable {vocabulary : Vocabulary} {position : Position} {sort : LexemeClass} {lexeme : List Char}
variable (same : vocabulary.symbols = Vocabulary.symbols OperatorTable.standard.keys)

include same

theorem Vocabulary.mem_standard (spells : vocabulary.Spells lexeme) :
    String.ofList lexeme ∈ OperatorTable.standard.keys := by
  rw [Vocabulary.spells_iff, same, ← Vocabulary.spells_iff] at spells
  exact spells.1

theorem Vocabulary.spells_standard {name : String} (known : name ∈ OperatorTable.standard.keys)
    (plain : ¬ isIdentifier name.toList) : vocabulary.Spells name.toList := by
  rw [Vocabulary.spells_iff, same, ← Vocabulary.spells_iff]
  refine ⟨?_, plain⟩
  rwa [String.ofList_toList]

theorem Vocabulary.clear_of_symbols : "" ∉ vocabulary := by
  intro member
  have empty : vocabulary.Spells [] := ⟨member, by decide⟩
  exact absurd (Vocabulary.mem_standard same empty) (by decide)

/-- No word has a blank in it. -/
theorem LexemeClass.solid (word : sort ≠ .blank) (spells : sort.Spells position vocabulary lexeme) :
    ∀ c ∈ lexeme, isSolid c := by
  cases sort with
  | name => exact solid_of_isIdentifier spells
  | number =>
      obtain ⟨number, written, rfl⟩ := spells
      have sign : (signText number.sign).all isSolid := by
        rcases number.sign with _ | _ | _ <;> decide
      exact List.forall_mem_append.mpr ⟨List.all_eq_true.mp sign, written.numeral.solid⟩
  | operator =>
      have symbols : OperatorTable.standard.keys.all (·.toList.all isSolid) := by decide
      have known := List.all_eq_true.mp symbols _ (Vocabulary.mem_standard same spells)
      rw [String.toList_ofList] at known
      exact List.all_eq_true.mp known
  | blank => exact absurd rfl word

end Standard

section Shared

variable (position : Position) (vocabulary : Vocabulary) (text text' : List Char)

/-- Two texts begin with the same word. -/
inductive Share : List Char → Prop
  | interval {low high : DecimalNumeral} {rest rest' : List Char} :
      IntervalFront text low high rest → IntervalFront text' low high rest' →
      Share (intervalText low high)
  | word {sort : LexemeClass} {lexeme : List Char} : sort ≠ .blank →
      Decides position vocabulary sort text lexeme →
      Decides position vocabulary sort text' lexeme → Share lexeme

end Shared

theorem Share.congr {position : Position} {vocabulary vocabulary' : Vocabulary}
    {text text' lexeme : List Char} (same : vocabulary.symbols = vocabulary'.symbols)
    (h : Share position vocabulary text text' lexeme) :
    Share position vocabulary' text text' lexeme := by
  cases h with
  | interval first second => exact .interval first second
  | word word first second => exact .word word (first.congr same) (second.congr same)

section Front

variable {position : Position} {vocabulary : Vocabulary} {lexeme front tail tail' : List Char}
variable (same : vocabulary.symbols = Vocabulary.symbols OperatorTable.standard.keys)
variable (parted : Parted tail') (inside : lexeme <+: front)

include parted inside

theorem IntervalFront.onward {low high : DecimalNumeral} {rest : List Char}
    (h : IntervalFront (front ++ tail) low high rest) (spelled : lexeme = intervalText low high) :
    ∃ rest', IntervalFront (front ++ tail') low high rest' := by
  subst spelled
  obtain ⟨more, rfl⟩ := inside
  refine ⟨more ++ tail', h.writtenLow, h.writtenHigh, List.append_assoc _ _ _, ?_⟩
  cases more with
  | nil =>
      rw [List.nil_append]
      cases first : tail'.head? with
      | none => rfl
      | some c => exact isAlphanumeric_of_not_solid (parted c first)
  | cons c more =>
      have ends := h.ends
      have rest : rest = (c :: more) ++ tail := by
        have spelled := h.spelled
        rw [List.append_assoc] at spelled
        exact (List.append_cancel_left spelled).symm
      rw [rest] at ends
      exact ends

include same

theorem Decides.onward {sort : LexemeClass} (word : sort ≠ .blank)
    (h : Decides position vocabulary sort (front ++ tail) lexeme) :
    Decides position vocabulary sort (front ++ tail') lexeme := by
  have back {other : List Char} (solid : ∀ c ∈ other, isSolid c)
      (begins : other <+: front ++ tail') : other <+: front ++ tail :=
    (parted.begins solid begins).trans (List.prefix_append front tail)
  refine ⟨fun marked => ?_, fun other passed text begins spells => ?_, ?_⟩
  · have solid : intervalMark.all isSolid := by decide
    exact h.unmarked (back (List.all_eq_true.mp solid) marked)
  · have earlier : other ≠ .blank := by
      rintro rfl
      cases sort <;> exact absurd passed (by decide)
    exact h.passed other passed text (back (LexemeClass.solid same earlier spells) begins) spells
  · refine ⟨inside.trans (List.prefix_append front tail'), h.longest.fits, ?_⟩
    intro other begins spells
    exact h.longest.most other (back (LexemeClass.solid same word spells) begins) spells

/-- A word stays as it is if blanks are put somewhere behind it. -/
theorem Share.onward
    (h : Share position vocabulary (front ++ tail) (front ++ tail) lexeme) :
    Share position vocabulary (front ++ tail) (front ++ tail') lexeme := by
  cases h with
  | interval first _ =>
      obtain ⟨rest', second⟩ := first.onward parted inside rfl
      exact .interval first second
  | word solid first _ => exact .word solid first (first.onward same parted inside solid)

end Front

section Reading

open Recognizer

variable {α : Type} [Scalar α] [Numeral α]
variable {position : Position} {vocabulary : Vocabulary} {interner interner' : Interner}
variable {cursor cursor' : Cursor} {lexeme : List Char} {text text' : List Char}

theorem Share.begins (h : Share position vocabulary text text' lexeme) :
    lexeme <+: text ∧ lexeme <+: text' := by
  cases h with
  | interval first second => exact ⟨⟨_, first.spelled.symm⟩, ⟨_, second.spelled.symm⟩⟩
  | word _ first second => exact ⟨first.longest.begins, second.longest.begins⟩

theorem Share.nonempty (clear : "" ∉ vocabulary) (h : Share position vocabulary text text' lexeme) :
    lexeme ≠ [] := by
  cases h with
  | interval => exact List.cons_ne_nil _ _
  | word _ first _ => exact LexemeClass.nonempty clear first.longest.fits

/-- What a word is depends on nothing before it or behind it. -/
theorem firstScan_of_word {sort : LexemeClass} (word : sort ≠ .blank)
    (spells : sort.Spells position vocabulary lexeme) :
    ∃ (kind : TokenKind α) (interner' : Interner), (sort ≠ .name → interner' = interner) ∧
      ∀ cursor : Cursor, Decides position vocabulary sort cursor.rest lexeme →
        Lexer.firstScan position vocabulary interner cursor Lexer.standard.rules =
          .ok (.token kind (cursor.advanceOver lexeme) interner') := by
  cases sort with
  | name =>
      by_cases known : vocabulary.contains (String.ofList lexeme)
      · refine ⟨.operator (String.ofList lexeme), interner, fun _ => rfl, fun cursor decides => ?_⟩
        refine firstScan_of_decides decides (congrArg Except.ok ?_) nofun
        rw [scanName_of_longest decides.longest, if_pos known]
      · refine ⟨.literal (.symbol (interner.intern (String.ofList lexeme)).1),
          (interner.intern (String.ofList lexeme)).2, fun other => (other rfl).elim,
          fun cursor decides => ?_⟩
        refine firstScan_of_decides decides (congrArg Except.ok ?_) nofun
        rw [scanName_of_longest decides.longest, if_neg known]
  | number =>
      obtain ⟨number, written, rfl⟩ := spells
      refine ⟨.literal (.number number.value), interner, fun _ => rfl, fun cursor decides => ?_⟩
      exact firstScan_of_decides decides
        (congrArg Except.ok (scanNumber_of_longest written decides.longest)) nofun
  | operator =>
      refine ⟨.operator (String.ofList lexeme), interner, fun _ => rfl, fun cursor decides => ?_⟩
      refine firstScan_of_decides decides (congrArg Except.ok ?_) nofun
      rw [scanOperator, Vocabulary.longestSymbol?_of_longest decides.longest]
      dsimp only
      rw [String.toList_ofList]
  | blank => exact absurd rfl word

theorem Share.firstScan (h : Share position vocabulary cursor.rest cursor'.rest lexeme) :
    ∃ (kind : TokenKind α) (interner' : Interner),
      Lexer.firstScan position vocabulary interner cursor Lexer.standard.rules =
          .ok (.token kind (cursor.advanceOver lexeme) interner') ∧
        Lexer.firstScan position vocabulary interner cursor' Lexer.standard.rules =
          .ok (.token kind (cursor'.advanceOver lexeme) interner') := by
  cases h with
  | interval first second => exact ⟨_, _, firstScan_of_front first, firstScan_of_front second⟩
  | word word first second =>
      obtain ⟨kind, interner', _, scanned⟩ :=
        @firstScan_of_word α _ _ _ _ interner _ _ word first.longest.fits
      exact ⟨kind, interner', scanned cursor first, scanned cursor' second⟩

/-- A token that is read is a word at the front of the text. -/
theorem share_of_firstScan {kind : TokenKind α} {after : Cursor}
    (found : Lexer.firstScan position vocabulary interner cursor Lexer.standard.rules =
      .ok (.token kind after interner')) :
    ∃ lexeme, Share position vocabulary cursor.rest cursor.rest lexeme ∧
      after = cursor.advanceOver lexeme := by
  have whole {lexeme : List Char} (share : Share position vocabulary cursor.rest cursor.rest lexeme) :
      ∃ lexeme, Share position vocabulary cursor.rest cursor.rest lexeme ∧
        after = cursor.advanceOver lexeme := by
    obtain ⟨_, _, scanned, _⟩ := @Share.firstScan α _ _ _ _ interner _ _ _ share
    cases found.symm.trans scanned
    exact ⟨lexeme, share, rfl⟩
  by_cases marked : intervalMark <+: cursor.rest
  · rcases intervalFront_or_flawed marked with ⟨low, high, rest, front⟩ | ⟨right, flaw, flawed⟩
    · exact whole (.interval front front)
    · rw [firstScan_of_flawed flawed] at found
      cases found
  rcases decides_or_foreign position vocabulary marked with ⟨sort, lexeme, decides⟩ | foreign
  · by_cases blank : sort = .blank
    · subst blank
      rw [firstScan_of_blanks decides] at found
      cases found
    · exact whole (.word blank decides decides)
  · rw [firstScan_of_foreign foreign] at found
    cases found

end Reading

section Positions

variable {position : Position} {vocabulary : Vocabulary} {sort : LexemeClass}
variable {text text' lexeme : List Char}

/-- Only where an operand may begin are there more words, which are numbers with a sign. -/
theorem LexemeClass.spells_anywhere (spells : sort.Spells .operator vocabulary lexeme) :
    sort.Spells position vocabulary lexeme := by
  cases sort with
  | number =>
      obtain ⟨number, written, rfl⟩ := spells
      refine ⟨number, ⟨written.numeral, fun signed => ?_⟩, rfl⟩
      cases written.sign signed
  | _ => exact spells

theorem Decides.at_operator (h : Decides position vocabulary sort text lexeme)
    (spells : sort.Spells .operator vocabulary lexeme) :
    Decides .operator vocabulary sort text lexeme :=
  ⟨h.unmarked, fun other passed text begins spells =>
      h.passed other passed text begins (LexemeClass.spells_anywhere spells),
    h.longest.begins, spells,
    fun text begins spells => h.longest.most text begins (LexemeClass.spells_anywhere spells)⟩

/-- Where an operand may begin, a number or an operator is one or the other. -/
theorem Decides.at_operand (h : Decides .operator vocabulary sort text lexeme)
    (word : sort ≠ .blank) (other : sort ≠ .name) : ∃ (sort' : LexemeClass) (lexeme' : List Char),
      sort' ≠ .blank ∧ sort' ≠ .name ∧ Decides .operand vocabulary sort' text lexeme' := by
  have noName : Lacks (fun lexeme => isIdentifier lexeme) text := by
    cases sort with
    | name => exact absurd rfl other
    | number => exact h.passed .name (by decide)
    | operator => exact h.passed .name (by decide)
    | blank => exact absurd rfl word
  rcases longest_or_lacks (SignedNumeral.Spells .operand) text with ⟨number, longest⟩ | noNumber
  · refine ⟨.number, number, by decide, by decide, h.unmarked, fun other passed => ?_, longest⟩
    obtain rfl := List.mem_singleton.mp passed
    exact noName
  · cases sort with
    | operator =>
        refine ⟨.operator, lexeme, by decide, by decide, h.unmarked, fun other passed => ?_, h.longest⟩
        rcases List.mem_pair.mp passed with rfl | rfl
        · exact noName
        · exact noNumber
    | number =>
        have spells := @LexemeClass.spells_anywhere .operand vocabulary .number _ h.longest.fits
        exact absurd spells (noNumber lexeme h.longest.begins)
    | name => exact absurd rfl other
    | blank => exact absurd rfl word

/-- Behind an operand a number begins with a digit. -/
theorem SignedNumeral.lacks_of_not_isDigit {c : Char} {rest : List Char} (other : c.isDigit = false) :
    Lacks (SignedNumeral.Spells .operator) (c :: rest) := by
  rintro _ begins ⟨⟨sign, numeral⟩, written, rfl⟩
  obtain rfl : sign = none := by
    by_contra signed
    cases written.sign signed
  obtain ⟨d, digits, spelled, digit⟩ := written.numeral.first
  change numeral.lexeme <+: _ at begins
  rw [spelled, List.cons_prefix_cons] at begins
  rw [begins.1, other] at digit
  cases digit

section Signs

variable (same : vocabulary.symbols = Vocabulary.symbols OperatorTable.standard.keys)

include same

/-- No operator goes on with a digit. -/
theorem Vocabulary.length_le_of_isDigit {c d : Char} {rest : List Char} (digit : d.isDigit)
    (spells : vocabulary.Spells lexeme) (begins : lexeme <+: c :: d :: rest) : lexeme.length ≤ 1 := by
  have solid : OperatorTable.standard.keys.all fun name =>
      (name.toList[1]?).all fun c => !c.isDigit := by decide
  have clear := List.all_eq_true.mp solid _ (Vocabulary.mem_standard same spells)
  rw [String.toList_ofList] at clear
  cases lexeme with
  | nil => exact Nat.zero_le 1
  | cons first lexeme =>
      cases lexeme with
      | nil => exact Nat.le_refl 1
      | cons second lexeme =>
          simp only [List.cons_prefix_cons] at begins
          change (!second.isDigit) = true at clear
          rw [begins.2.1, digit] at clear
          cases clear

/-- Behind an operand, the sign of a number is an operator. -/
theorem Decides.sign {number : SignedNumeral} {negative : Bool}
    (h : Decides .operand vocabulary .number text number.lexeme)
    (signed : number.sign = some negative) (written : number.numeral.Written) :
    Decides .operator vocabulary .operator text (signText (some negative)) := by
  obtain ⟨sign, numeral⟩ := number
  obtain rfl : sign = some negative := signed
  obtain ⟨d, digits, spelled, digit⟩ := written.first
  obtain ⟨rest, rfl⟩ := h.longest.begins
  obtain ⟨c, sign, plain, known⟩ : ∃ c, signText (some negative) = [c] ∧ c.isDigit = false ∧
      vocabulary.Spells [c] := by
    cases negative
    · exact ⟨'+', rfl, rfl, @Vocabulary.spells_standard _ same "+" (by decide) (by decide)⟩
    · exact ⟨'-', rfl, rfl, @Vocabulary.spells_standard _ same "-" (by decide) (by decide)⟩
  have text : SignedNumeral.lexeme ⟨some negative, numeral⟩ ++ rest = c :: d :: (digits ++ rest) := by
    change signText (some negative) ++ numeral.lexeme ++ rest = _
    rw [sign, spelled]
    rfl
  have unmarked := h.unmarked
  have noName := h.passed .name (by decide)
  rw [text] at unmarked noName ⊢
  rw [sign]
  refine ⟨unmarked, fun other passed => ?_, ⟨d :: (digits ++ rest), rfl⟩, known,
    fun other begins spells => Vocabulary.length_le_of_isDigit same digit spells begins⟩
  rcases List.mem_pair.mp passed with rfl | rfl
  · exact noName
  · exact SignedNumeral.lacks_of_not_isDigit plain

theorem Share.at_operator (h : Share .operand vocabulary text text' lexeme) :
    ∃ lexeme', Share .operator vocabulary text text' lexeme' := by
  cases h with
  | interval first second => exact ⟨_, .interval first second⟩
  | @word sort lexeme word first second =>
      cases sort with
      | number =>
          obtain ⟨⟨sign, numeral⟩, written, rfl⟩ := first.longest.fits
          cases sign with
          | none =>
              have spells : SignedNumeral.Spells .operator (SignedNumeral.lexeme ⟨none, numeral⟩) :=
                ⟨⟨none, numeral⟩, ⟨written.numeral, fun signed => absurd rfl signed⟩, rfl⟩
              exact ⟨_, .word word (first.at_operator spells) (second.at_operator spells)⟩
          | some negative =>
              have sign := first.sign same rfl written.numeral
              exact ⟨_, .word (by decide) sign (second.sign same rfl written.numeral)⟩
      | name =>
          exact ⟨_, .word word (first.at_operator first.longest.fits)
            (second.at_operator first.longest.fits)⟩
      | operator =>
          exact ⟨_, .word word (first.at_operator first.longest.fits)
            (second.at_operator first.longest.fits)⟩
      | blank => exact absurd rfl word

end Signs

end Positions

section Seeing

variable {α : Type} [Scalar α] [Numeral α]
variable {position : Position} {vocabulary : Vocabulary} {interner : Interner}
variable {cursor cursor' : Cursor} {sort : LexemeClass} {lexeme : List Char}

/-- The one may be a number where the other is its sign, but no names are seen. -/
theorem Decides.firstScan_operand (word : sort ≠ .blank) (other : sort ≠ .name)
    (h : Decides .operator vocabulary sort cursor.rest lexeme) :
    ∃ (kind : TokenKind α) (after : Cursor),
      Lexer.firstScan .operand vocabulary interner cursor Lexer.standard.rules =
        .ok (.token kind after interner) := by
  obtain ⟨sort', lexeme', word', other', decides⟩ := h.at_operand word other
  obtain ⟨kind, _, unseen, scanned⟩ :=
    @firstScan_of_word α _ _ _ _ interner _ _ word' decides.longest.fits
  obtain rfl := unseen other'
  exact ⟨kind, _, scanned cursor decides⟩

variable (same : vocabulary.symbols = Vocabulary.symbols OperatorTable.standard.keys)

include same

/-- Where two texts share a word in one position, both have some word in the other one. As an
operator it is the same. -/
theorem Share.seen (other : Position)
    (h : Share position vocabulary cursor.rest cursor'.rest lexeme) :
    ∃ (kind kind' : TokenKind α) (after after' : Cursor) (interner' : Interner),
      Lexer.firstScan other vocabulary interner cursor Lexer.standard.rules =
          .ok (.token kind after interner') ∧
        Lexer.firstScan other vocabulary interner cursor' Lexer.standard.rules =
          .ok (.token kind' after' interner') ∧
        (other = .operator → kind' = kind) := by
  have alike {lexeme : List Char} (h : Share other vocabulary cursor.rest cursor'.rest lexeme) :
      ∃ (kind kind' : TokenKind α) (after after' : Cursor) (interner' : Interner),
        Lexer.firstScan other vocabulary interner cursor Lexer.standard.rules =
            .ok (.token kind after interner') ∧
          Lexer.firstScan other vocabulary interner cursor' Lexer.standard.rules =
            .ok (.token kind' after' interner') ∧
          (other = .operator → kind' = kind) := by
    obtain ⟨kind, interner', first, second⟩ :=
      @Share.firstScan α _ _ other vocabulary interner cursor cursor' lexeme h
    exact ⟨kind, kind, _, _, interner', first, second, fun _ => rfl⟩
  cases position with
  | operand =>
      cases other with
      | operand => exact alike h
      | operator =>
          obtain ⟨lexeme', sharing⟩ := h.at_operator same
          exact alike sharing
  | operator =>
      cases other with
      | operator => exact alike h
      | operand =>
          cases h with
          | interval first second => exact alike (.interval first second)
          | @word sort lexeme word first second =>
              by_cases name : sort = .name
              · subst name
                have found {text : List Char} (h : Decides .operator vocabulary .name text lexeme) :
                    Decides .operand vocabulary .name text lexeme :=
                  ⟨h.unmarked, fun _ absurd => (List.not_mem_nil absurd).elim, h.longest⟩
                exact alike (.word word (found first) (found second))
              · obtain ⟨kind, after, found⟩ :=
                  @Decides.firstScan_operand α _ _ _ interner _ _ _ word name first
                obtain ⟨kind', after', found'⟩ :=
                  @Decides.firstScan_operand α _ _ _ interner _ _ _ word name second
                exact ⟨kind, kind', after, after', interner, found, found', nofun⟩

end Seeing

section Blanks

variable {inComment closed : Bool} {run rest text : List Char}

theorem Blanks.append (h : Blanks closed run) (ends : closed = false) (h' : Blanks inComment rest) :
    Blanks inComment (run ++ rest) := by
  induction h with
  | none => exact h'
  | blank first _ ih => exact .blank first (ih ends)
  | comment inLine _ ih =>
      rw [List.cons_append, List.append_assoc, List.cons_append]
      exact .comment inLine (ih ends)
  | openComment => cases ends

/-- In a comment any character goes on with it or ends it. -/
theorem Blanks.concat (h : Blanks inComment run) (inside : inComment = true) (c : Char) :
    ∃ inComment, Blanks inComment (run ++ [c]) := by
  induction h with
  | none => cases inside
  | blank first _ ih =>
      obtain ⟨inComment, longer⟩ := ih inside
      exact ⟨inComment, .blank first longer⟩
  | comment inLine _ ih =>
      obtain ⟨inComment, longer⟩ := ih inside
      rw [List.cons_append, List.append_assoc, List.cons_append]
      exact ⟨inComment, .comment inLine longer⟩
  | @openComment body inLine =>
      by_cases newLine : c = '\n'
      · subst newLine
        exact ⟨false, .comment inLine .none⟩
      · rw [List.cons_append]
        refine ⟨true, .openComment ?_⟩
        rw [List.mem_append, List.mem_singleton, not_or]
        exact ⟨inLine, fun same => newLine same.symm⟩

/-- Blanks with something behind them end outside of comments. -/
theorem blanks_in_front (some : blankLength false text ≠ 0)
    (more : text.drop (blankLength false text) ≠ []) :
    Blanks false (text.take (blankLength false text)) := by
  obtain ⟨_, inComment, blanks⟩ := (longest_blanks some).fits
  cases inComment with
  | false => exact blanks
  | true =>
      obtain ⟨c, rest, behind⟩ := List.exists_cons_of_ne_nil more
      obtain ⟨inComment, longer⟩ := blanks.concat rfl c
      have begins : text.take (blankLength false text) ++ [c] <+: text := by
        refine ⟨rest, ?_⟩
        rw [List.append_assoc, List.singleton_append, ← behind, List.take_append_drop]
      have most := (longest_blanks some).most _ begins
        ⟨List.append_ne_nil_of_right_ne_nil _ (List.cons_ne_nil _ _), inComment, longer⟩
      rw [List.length_append, List.length_singleton] at most
      omega

variable {α : Type} [Scalar α] [Numeral α]
variable {position : Position} {vocabulary : Vocabulary} {interner : Interner} {cursor : Cursor}

/-- What is read is a word with blanks in front of it, or nothing but blanks. -/
theorem Lexer.next_divided (clear : "" ∉ vocabulary) {r : Lexer.Reading α}
    (read : Lexer.standard.next position vocabulary interner cursor = .ok r) :
    (r.token.kind = .endOfInput ∧ ∃ inComment, Blanks inComment cursor.rest) ∨
      (r.token.kind ≠ .endOfInput ∧ ∃ gap lexeme rest, Blanks false gap ∧
        cursor.rest = gap ++ (lexeme ++ rest) ∧
        Share position vocabulary (lexeme ++ rest) (lexeme ++ rest) lexeme ∧
        r.token.location = gap.foldl Location.after cursor.location ∧
        r.cursor = (cursor.advanceOver gap).advanceOver lexeme) := by
  have lexes := Lexer.lexes_of_next read
  clear read
  induction lexes with
  | @atEnd cursor finished =>
      rw [finished]
      exact .inl ⟨rfl, false, .none⟩
  | @token cursor after kind interner' more found =>
      have word : kind ≠ .endOfInput := by
        rintro rfl
        exact (Lexer.firstScan_token found).2.1
      obtain ⟨lexeme, share, rfl⟩ := share_of_firstScan found
      obtain ⟨rest, spelled⟩ := share.begins.1
      rw [← spelled] at share
      exact .inr ⟨word, [], lexeme, rest, .none, spelled.symm, share, rfl, rfl⟩
  | @blank cursor after r found lexes ih =>
      obtain ⟨some, rfl, _⟩ := Lexer.firstScan_blank found
      rw [Cursor.rest_advance] at ih
      have whole := List.take_append_drop (blankLength false cursor.rest) cursor.rest
      rcases ih with ⟨ends, inComment, blanks⟩ | ⟨word, gap, lexeme, rest, blanks, spelled, share,
        location, place⟩
      · refine .inl ⟨ends, ?_⟩
        by_cases more : cursor.rest.drop (blankLength false cursor.rest) = []
        · obtain ⟨_, fits⟩ := (longest_blanks some).fits
          rw [more, List.append_nil] at whole
          rwa [whole] at fits
        · rw [← whole]
          exact ⟨inComment, (blanks_in_front some more).append rfl blanks⟩
      · have more : cursor.rest.drop (blankLength false cursor.rest) ≠ [] := by
          rw [spelled]
          exact List.append_ne_nil_of_right_ne_nil _
            (List.append_ne_nil_of_left_ne_nil (share.nonempty clear) rest)
        have passed : cursor.advanceOver (cursor.rest.take (blankLength false cursor.rest)) =
            cursor.advance (blankLength false cursor.rest) := by
          rw [Cursor.advanceOver, List.length_take, Nat.min_eq_left (blankLength_le false cursor.rest)]
        refine .inr ⟨word, cursor.rest.take (blankLength false cursor.rest) ++ gap, lexeme, rest,
          (blanks_in_front some more).append rfl blanks, ?_, share, ?_, ?_⟩
        · rw [List.append_assoc, ← spelled, whole]
        · rw [location, Cursor.location_advance, List.foldl_append]
        · rw [place, Cursor.advanceOver_append, passed]

/-- Blanks in front of a text are passed over. -/
theorem Lexer.next_of_blanks
    (same : vocabulary.symbols = Vocabulary.symbols OperatorTable.standard.keys)
    (blanks : Blanks false run) (spelled : cursor.rest = run ++ rest) :
    Lexer.standard.next (α := α) position vocabulary interner cursor =
      Lexer.standard.next position vocabulary interner (cursor.advanceOver run) := by
  rw [Lexer.next_skip same cursor, Lexer.next_skip same (cursor.advanceOver run),
    Cursor.rest_advanceOver spelled, spelled, blanks.blankLength_append rfl, Cursor.advanceOver,
    Cursor.advance_advance]

section Gaps

variable (α) (interner) {cursor' : Cursor} {gap gap' rest' lexeme : List Char}
variable (same : vocabulary.symbols = Vocabulary.symbols OperatorTable.standard.keys)
variable (blanks : Blanks false gap) (spelled : cursor.rest = gap ++ (lexeme ++ rest))
variable (blanks' : Blanks false gap') (spelled' : cursor'.rest = gap' ++ (lexeme ++ rest'))
variable (share : Share position vocabulary (lexeme ++ rest) (lexeme ++ rest') lexeme)

include same blanks spelled blanks' spelled' share

/-- A word that two texts share behind their blanks is read from both. -/
theorem Share.next : ∃ (kind : TokenKind α) (interner' : Interner), kind ≠ .endOfInput ∧
    Lexer.standard.next position vocabulary interner cursor =
      .ok ⟨⟨kind, (cursor.advanceOver gap).location⟩, (cursor.advanceOver gap).advanceOver lexeme,
        interner'⟩ ∧
    Lexer.standard.next position vocabulary interner cursor' =
      .ok ⟨⟨kind, (cursor'.advanceOver gap').location⟩,
        (cursor'.advanceOver gap').advanceOver lexeme, interner'⟩ := by
  have here := Cursor.rest_advanceOver spelled
  have here' := Cursor.rest_advanceOver spelled'
  have solid : lexeme ≠ [] := share.nonempty (Vocabulary.clear_of_symbols same)
  rw [← here, ← here'] at share
  obtain ⟨kind, interner', first, second⟩ :=
    @Share.firstScan α _ _ _ _ interner _ _ _ share
  have word : kind ≠ .endOfInput := by
    rintro rfl
    exact (Lexer.firstScan_token first).2.1
  refine ⟨kind, interner', word, ?_, ?_⟩
  · rw [Lexer.next_of_blanks same blanks spelled]
    exact (Lexer.Lexes.token (here ▸ List.append_ne_nil_of_left_ne_nil solid rest) first).next
  · rw [Lexer.next_of_blanks same blanks' spelled']
    exact (Lexer.Lexes.token (here' ▸ List.append_ne_nil_of_left_ne_nil solid rest') second).next

/-- In the other position something is read from both. -/
theorem Share.next_elsewhere (other : Position) : ∃ r r' : Lexer.Reading α,
    Lexer.standard.next other vocabulary interner cursor = .ok r ∧
      Lexer.standard.next other vocabulary interner cursor' = .ok r' ∧
      r.token.kind ≠ .endOfInput ∧ r'.token.kind ≠ .endOfInput ∧ r'.interner = r.interner ∧
      (other = .operator → r'.token.kind = r.token.kind) := by
  have here := Cursor.rest_advanceOver spelled
  have here' := Cursor.rest_advanceOver spelled'
  have solid : lexeme ≠ [] := share.nonempty (Vocabulary.clear_of_symbols same)
  rw [← here, ← here'] at share
  obtain ⟨kind, kind', after, after', interner', first, second, alike⟩ :=
    @Share.seen α _ _ _ _ interner _ _ _ same other share
  have word : kind ≠ .endOfInput := by
    rintro rfl
    exact (Lexer.firstScan_token first).2.1
  have word' : kind' ≠ .endOfInput := by
    rintro rfl
    exact (Lexer.firstScan_token second).2.1
  refine ⟨⟨⟨kind, (cursor.advanceOver gap).location⟩, after, interner'⟩,
    ⟨⟨kind', (cursor'.advanceOver gap').location⟩, after', interner'⟩, ?_, ?_, word, word', rfl,
    alike⟩
  · rw [Lexer.next_of_blanks same blanks spelled]
    exact (Lexer.Lexes.token (here ▸ List.append_ne_nil_of_left_ne_nil solid rest) first).next
  · rw [Lexer.next_of_blanks same blanks' spelled']
    exact (Lexer.Lexes.token (here' ▸ List.append_ne_nil_of_left_ne_nil solid rest') second).next

end Gaps

theorem Lexer.next_of_all_blanks
    (same : vocabulary.symbols = Vocabulary.symbols OperatorTable.standard.keys)
    (blanks : Blanks inComment cursor.rest) :
    ∃ r : Lexer.Reading α, Lexer.standard.next position vocabulary interner cursor = .ok r ∧
      r.token.kind = .endOfInput ∧ r.interner = interner ∧ r.cursor.rest = [] := by
  have finished : (cursor.advance (blankLength false cursor.rest)).rest = [] := by
    rw [Cursor.rest_advance, blanks.blankLength_eq, List.drop_length]
  have read := (@Lexer.Lexes.atEnd α _ _ Lexer.standard position vocabulary interner _ finished).next
  exact ⟨_, (Lexer.next_skip same cursor).trans read, rfl, rfl, finished⟩

end Blanks

end IntervalCalc
