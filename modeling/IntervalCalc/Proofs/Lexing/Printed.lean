import IntervalCalc.Proofs.Interning
import IntervalCalc.Proofs.Lexing.Continuing

/-!
Words before a delimiter. A name, a numeral or an operator with a blank, a comma or a bracket
behind it is read exactly as it is written.
-/

namespace IntervalCalc

/-- Characters that no name or numeral continues with. -/
def delimiters : List Char :=
  [' ', ',', '(', ')', '[', ']', '\x7b', '\x7d']

/-- The text ends, or goes on with a delimiter. -/
def Delimited (tail : List Char) : Prop :=
  ∀ c ∈ tail.head?, c ∈ delimiters

theorem Delimited.apart {tail : List Char} (delimited : Delimited tail) {p : Char → Bool}
    (fails : delimiters.all (! p ·)) : ∀ c ∈ tail.head?, p c = false := by
  intro c first
  have failed := List.all_eq_true.mp fails c (delimited c first)
  rwa [Bool.not_eq_true'] at failed

theorem Delimited.nil : Delimited [] :=
  fun _ first => by cases first

theorem Delimited.blank (tail : List Char) : Delimited (' ' :: tail) := by
  intro c first
  cases first
  decide

section Stretch

variable {p : Char → Bool} {text tail : List Char} (all : ∀ c ∈ text, p c)
variable (apart : ∀ c ∈ tail.head?, p c = false)

include all apart

theorem takeWhile_append_apart : (text ++ tail).takeWhile p = text := by
  have none : tail.takeWhile p = [] := by
    cases tail with
    | nil => rfl
    | cons c rest => rw [List.takeWhile_cons, apart c rfl]; rfl
  rw [List.takeWhile_append_of_pos all, none, List.append_nil]

theorem dropWhile_append_apart : (text ++ tail).dropWhile p = tail := by
  rw [List.dropWhile_append_of_pos all]
  cases tail with
  | nil => rfl
  | cons c rest => rw [List.dropWhile_cons, apart c rfl]; rfl

end Stretch

theorem nameLexeme_append_delimited {text tail : List Char} (identifier : isIdentifier text)
    (delimited : Delimited tail) : nameLexeme (text ++ tail) = text := by
  cases text with
  | nil => cases identifier
  | cons c rest =>
      rw [isIdentifier, Bool.and_eq_true, List.all_eq_true] at identifier
      rw [List.cons_append, nameLexeme, if_pos identifier.1,
        takeWhile_append_apart identifier.2 (delimited.apart (by decide))]

def decimalDigits : List Char :=
  ['0', '1', '2', '3', '4', '5', '6', '7', '8', '9']

theorem mem_decimalDigits {c : Char} (digit : c.isDigit) : c ∈ decimalDigits := by
  rw [Char.isDigit, Bool.and_eq_true, decide_eq_true_iff, decide_eq_true_iff] at digit
  have low : 48 ≤ c.toNat := digit.1
  have high : c.toNat ≤ 57 := digit.2
  have codes : c.toNat ∈ [48, 49, 50, 51, 52, 53, 54, 55, 56, 57] := by
    simp only [List.mem_cons, List.not_mem_nil, or_false]
    omega
  rw [← Char.ofNat_toNat c]
  exact List.mem_map_of_mem (f := Char.ofNat) codes

theorem isNameStart_of_isDigit {c : Char} (digit : c.isDigit) : isNameStart c = false := by
  have none : decimalDigits.all (! isNameStart ·) := by decide +kernel
  have failed := List.all_eq_true.mp none c (mem_decimalDigits digit)
  rwa [Bool.not_eq_true'] at failed

namespace DecimalNumeral

/-- A numeral with a digit before the point, and of digits only. -/
structure Written (numeral : DecimalNumeral) : Prop where
  nonempty : numeral.whole ≠ []
  whole : ∀ c ∈ numeral.whole, c.isDigit
  fraction : ∀ c ∈ numeral.fraction, c.isDigit

instance (numeral : DecimalNumeral) : Decidable numeral.Written :=
  decidable_of_iff (numeral.whole ≠ [] ∧ numeral.whole.all Char.isDigit ∧
      numeral.fraction.all Char.isDigit)
    ⟨fun ⟨nonempty, whole, fraction⟩ =>
        ⟨nonempty, List.all_eq_true.mp whole, List.all_eq_true.mp fraction⟩,
      fun h => ⟨h.nonempty, List.all_eq_true.mpr h.whole, List.all_eq_true.mpr h.fraction⟩⟩

variable {numeral : DecimalNumeral} {tail : List Char}

theorem Written.first (written : numeral.Written) :
    ∃ c rest, numeral.lexeme = c :: rest ∧ c.isDigit := by
  obtain ⟨c, rest, digits⟩ := List.exists_cons_of_ne_nil written.nonempty
  have digit := written.whole c (by rw [digits]; exact List.mem_cons_self)
  unfold lexeme
  split
  · exact ⟨c, rest, digits, digit⟩
  · exact ⟨c, _, by rw [digits]; rfl, digit⟩

theorem read?_append_delimited (written : numeral.Written) (delimited : Delimited tail) :
    read? (numeral.lexeme ++ tail) = some numeral := by
  obtain ⟨whole, fraction⟩ := numeral
  obtain ⟨c, rest, rfl⟩ : ∃ c rest, whole = c :: rest :=
    List.exists_cons_of_ne_nil written.nonempty
  have digits := delimited.apart (p := Char.isDigit) (by decide)
  unfold read? lexeme
  cases fraction with
  | nil =>
      dsimp only
      rw [takeWhile_append_apart written.whole digits, dropWhile_append_apart written.whole digits]
      cases tail with
      | nil => rfl
      | cons d more =>
          have point : d ≠ '.' := by
            rintro rfl
            exact absurd (delimited '.' rfl) (by decide)
          split
          next absurd => cases absurd
          next same _ => cases same; exact absurd rfl point
          · rfl
  | cons d more =>
      have after : ∀ e ∈ ('.' :: d :: more ++ tail).head?, e.isDigit = false := by
        intro e first
        cases first
        rfl
      have parts : (c :: rest) ++ '.' :: d :: more ++ tail =
          (c :: rest) ++ ('.' :: d :: more ++ tail) := List.append_assoc _ _ _
      dsimp only
      rw [parts, takeWhile_append_apart written.whole after,
        dropWhile_append_apart written.whole after]
      have fraction := takeWhile_append_apart written.fraction digits
      exact congrArg (fun digits => some (⟨c :: rest, digits⟩ : DecimalNumeral)) fraction

end DecimalNumeral

namespace Lexer

open Recognizer

variable {α : Type} [Scalar α] [Numeral α] {position : Position} {vocabulary : Vocabulary}
variable {interner : Interner} {cursor : Cursor} {tail : List Char}

theorem scanInterval_of_first (first : ∀ c ∈ cursor.rest.head?, c ≠ 'I') :
    Recognizer.interval.scan position vocabulary interner cursor =
      (.ok .declined : Except _ (Scan α)) := by
  refine scanInterval_of_closed ?_
  have other : (cursor.peek 0 == some 'I') = false := by
    rw [beq_eq_false_iff_ne, Cursor.peek, ← List.head?_eq_getElem?]
    exact fun found => first 'I' found rfl
  rw [other, Bool.false_and]

theorem scanName_of_first (first : ∀ c ∈ cursor.rest.head?, isNameStart c = false) :
    Recognizer.name.scan position vocabulary interner cursor =
      (.ok .declined : Except _ (Scan α)) := by
  have none : nameLexeme cursor.rest = [] := by
    cases text : cursor.rest with
    | nil => rfl
    | cons c rest =>
        rw [text] at first
        rw [nameLexeme, first c rfl]
        rfl
  change Except.ok (scanName vocabulary interner cursor) = _
  unfold scanName
  rw [none]

theorem next_of_firstScan {kind : TokenKind α} {n : Nat} {after : Interner}
    (more : cursor.rest ≠ [])
    (found : firstScan position vocabulary interner cursor
      [⟨"interval", .interval, 60⟩, ⟨"name", .name, 50⟩, ⟨"number", .number, 20⟩,
        ⟨"operator", .operator, 10⟩, ⟨"whitespace", .whitespace, 0⟩] =
      .ok (.token kind (cursor.advance n) after)) :
    Lexer.standard.next position vocabulary interner cursor =
      .ok ⟨⟨kind, cursor.location⟩, cursor.advance n, after⟩ :=
  (Lexes.token more found).next

/-- An interval literal begins with the letter of a name and a bracket. -/
theorem scanInterval_of_name {name : List Char} (identifier : isIdentifier name)
    (text : cursor.rest = name ++ tail)
    (plain : name = ['I'] → tail.head? ≠ some '\x7b') :
    Recognizer.interval.scan position vocabulary interner cursor =
      (.ok .declined : Except _ (Scan α)) := by
  refine scanInterval_of_closed ?_
  rw [Bool.and_eq_false_iff, beq_eq_false_iff_ne, beq_eq_false_iff_ne, Cursor.peek, Cursor.peek,
    text]
  cases name with
  | nil => cases identifier
  | cons c rest =>
      by_cases first : c = 'I'
      · subst first
        refine .inr ?_
        cases rest with
        | nil =>
            rw [List.head?_eq_getElem?] at plain
            exact plain rfl
        | cons d rest =>
            rw [isIdentifier, Bool.and_eq_true, List.all_eq_true] at identifier
            intro bracket
            cases bracket
            exact absurd (identifier.2 _ List.mem_cons_self) (by decide)
      · exact .inl fun same => first (Option.some.inj same)

omit [Scalar α] [Numeral α] in
theorem scanName_of_name {name : String} (identifier : isIdentifier name.toList)
    (delimited : Delimited tail) (text : cursor.rest = name.toList ++ tail) :
    scanName vocabulary interner cursor =
      (if vocabulary.contains name then
        .token (.operator name) (cursor.advance name.toList.length) interner
      else .token (.literal (.symbol (interner.intern name).1))
        (cursor.advance name.toList.length) (interner.intern name).2 : Scan α) := by
  have lexeme : nameLexeme cursor.rest = name.toList := by
    rw [text, nameLexeme_append_delimited identifier delimited]
  unfold scanName
  rw [lexeme]
  split
  next empty => rw [empty] at identifier; cases identifier
  · rw [String.ofList_toList]
    rfl

section Names

variable {name : String} (identifier : isIdentifier name.toList) (delimited : Delimited tail)
variable (text : cursor.rest = name.toList ++ tail)
variable (plain : name = "I" → tail.head? ≠ some '\x7b')

include identifier text plain

theorem next_of_scanName {kind : TokenKind α} {after : Interner}
    (found : scanName vocabulary interner cursor =
      .token kind (cursor.advance name.toList.length) after) :
    Lexer.standard.next position vocabulary interner cursor =
      .ok ⟨⟨kind, cursor.location⟩, cursor.advance name.toList.length, after⟩ := by
  have interval : Recognizer.interval.scan position vocabulary interner cursor =
      (.ok .declined : Except _ (Scan α)) := by
    refine scanInterval_of_name identifier text fun letter => plain ?_
    rw [← String.ofList_toList (s := name), letter]
  have word : Recognizer.name.scan position vocabulary interner cursor =
      .ok (.token kind (cursor.advance name.toList.length) after) := congrArg Except.ok found
  refine next_of_firstScan ?_ ?_
  · rw [text]
    intro empty
    rw [(List.append_eq_nil_iff.mp empty).1] at identifier
    cases identifier
  · simp only [firstScan, interval, word]

include delimited

theorem next_keyword (known : vocabulary.contains name) :
    Lexer.standard.next (α := α) position vocabulary interner cursor =
      .ok ⟨⟨.operator name, cursor.location⟩, cursor.advance name.toList.length, interner⟩ := by
  refine next_of_scanName identifier text plain ?_
  rw [scanName_of_name identifier delimited text, if_pos known]

/-- A name that is no operator is a symbol, and from then on a known one. -/
theorem next_name (unknown : ¬ vocabulary.contains name) :
    Lexer.standard.next (α := α) position vocabulary interner cursor =
      .ok ⟨⟨.literal (.symbol (interner.intern name).1), cursor.location⟩,
        cursor.advance name.toList.length, (interner.intern name).2⟩ := by
  refine next_of_scanName identifier text plain ?_
  rw [scanName_of_name identifier delimited text, if_neg unknown]

theorem next_symbol (unknown : ¬ vocabulary.contains name) {symbol : Symbol}
    (named : interner.lookup name = some symbol) :
    Lexer.standard.next (α := α) position vocabulary interner cursor =
      .ok ⟨⟨.literal (.symbol symbol), cursor.location⟩, cursor.advance name.toList.length,
        interner⟩ := by
  have read : Lexer.standard.next (α := α) position vocabulary interner cursor = _ :=
    next_name identifier delimited text plain unknown
  rw [Interner.intern_of_lookup named] at read
  exact read

end Names

section Signs

variable {c : Char} {rest : List Char} (text : cursor.rest = c :: rest)
variable (start : isNameStart c = false)

include text start

/-- What no name begins like is left to the recognizers of numbers, operators and blanks. -/
theorem firstScan_of_sign : firstScan (α := α) position vocabulary interner cursor
      [⟨"interval", .interval, 60⟩, ⟨"name", .name, 50⟩, ⟨"number", .number, 20⟩,
        ⟨"operator", .operator, 10⟩, ⟨"whitespace", .whitespace, 0⟩] =
    firstScan position vocabulary interner cursor [⟨"number", .number, 20⟩,
      ⟨"operator", .operator, 10⟩, ⟨"whitespace", .whitespace, 0⟩] := by
  have interval : Recognizer.interval.scan position vocabulary interner cursor =
      (.ok .declined : Except _ (Scan α)) := by
    refine scanInterval_of_first fun d first => ?_
    rw [text] at first
    cases first
    rintro rfl
    cases start
  have name : Recognizer.name.scan position vocabulary interner cursor =
      (.ok .declined : Except _ (Scan α)) := by
    refine scanName_of_first fun d first => ?_
    rw [text] at first
    cases first
    exact start
  rw [firstScan, interval]
  dsimp only
  rw [firstScan, name]

theorem next_of_scanNumber {kind : TokenKind α} {n : Nat}
    (found : scanNumber position interner cursor = .token kind (cursor.advance n) interner) :
    Lexer.standard.next position vocabulary interner cursor =
      .ok ⟨⟨kind, cursor.location⟩, cursor.advance n, interner⟩ := by
  have number : Recognizer.number.scan position vocabulary interner cursor =
      .ok (.token kind (cursor.advance n) interner) := congrArg Except.ok found
  refine next_of_firstScan (by rw [text]; exact List.cons_ne_nil _ _) ?_
  rw [firstScan_of_sign text start, firstScan, number]

/-- An operator that is not spelled like a name is read if no longer one fits, and no number. -/
theorem next_operator {name : String} (longest : vocabulary.longestSymbol? cursor.rest = some name)
    (unnumbered : scanNumber position interner cursor = (.declined : Scan α)) :
    Lexer.standard.next (α := α) position vocabulary interner cursor =
      .ok ⟨⟨.operator name, cursor.location⟩, cursor.advance name.toList.length, interner⟩ := by
  have number : Recognizer.number.scan position vocabulary interner cursor =
      (.ok .declined : Except _ (Scan α)) := congrArg Except.ok unnumbered
  have operator : Recognizer.operator.scan position vocabulary interner cursor =
      (.ok (.token (.operator name) (cursor.advance name.toList.length) interner) :
        Except _ (Scan α)) := by
    change Except.ok (scanOperator vocabulary interner cursor) = _
    unfold scanOperator
    rw [longest]
    rfl
  refine next_of_firstScan (by rw [text]; exact List.cons_ne_nil _ _) ?_
  rw [firstScan_of_sign text start]
  simp only [firstScan, number, operator]

end Signs

section Numerals

variable {numeral : DecimalNumeral} (written : numeral.Written) (delimited : Delimited tail)

include written delimited

theorem next_numeral (text : cursor.rest = numeral.lexeme ++ tail) :
    Lexer.standard.next (α := α) position vocabulary interner cursor =
      .ok ⟨⟨.literal (.number numeral.value), cursor.location⟩,
        cursor.advance numeral.lexeme.length, interner⟩ := by
  obtain ⟨c, rest, lexeme, digit⟩ := written.first
  have first : cursor.rest = c :: (rest ++ tail) := by rw [text, lexeme]; rfl
  have unsigned : sign? cursor.rest = none := by
    rw [first]
    unfold sign?
    split
    next same => cases same; cases digit
    next same => cases same; cases digit
    · rfl
  refine next_of_scanNumber first (isNameStart_of_isDigit digit) ?_
  unfold scanNumber
  rw [unsigned, ite_self]
  dsimp only
  rw [text, DecimalNumeral.read?_append_delimited written delimited]
  rfl

/-- A minus before a numeral belongs to it where an operand may begin. -/
theorem next_negative (text : cursor.rest = '-' :: (numeral.lexeme ++ tail)) :
    Lexer.standard.next (α := α) .operand vocabulary interner cursor =
      .ok ⟨⟨.literal (.number (-numeral.value)), cursor.location⟩,
        cursor.advance (numeral.lexeme.length + 1), interner⟩ := by
  refine next_of_scanNumber text (by decide) ?_
  have signed : sign? cursor.rest = some (true, numeral.lexeme ++ tail) := by rw [text]; rfl
  unfold scanNumber
  rw [if_pos rfl, signed]
  dsimp only
  rw [DecimalNumeral.read?_append_delimited written delimited]
  dsimp only
  rw [if_pos rfl, Cursor.advanceOver, Cursor.advance_advance, Nat.add_comm]

end Numerals

end Lexer

end IntervalCalc
