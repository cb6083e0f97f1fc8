import IntervalCalc.Proofs.Interval.Exact
import IntervalCalc.Proofs.Lexing.Intervals

/-!
What the standard lexer makes of a text. A text is divided into stretches from its beginning to its
end or to the first error: at each place an interval literal or its flaw if the text goes on with `I`
and a bracket, and otherwise the longest lexeme of the first class that has one there. The tokens of
a text are those of its division, and nothing else.
-/

namespace IntervalCalc

/-- The classes of lexemes, those that are looked for first before the others. -/
inductive LexemeClass where
  | name
  | number
  | operator
  | blank
deriving DecidableEq

namespace LexemeClass

/-- The lexemes of a class. -/
def Spells (position : Position) (vocabulary : Vocabulary) : LexemeClass → List Char → Prop
  | name => fun lexeme => isIdentifier lexeme
  | number => SignedNumeral.Spells position
  | operator => vocabulary.Spells
  | blank => BlankRun

def earlier : LexemeClass → List LexemeClass
  | name => []
  | number => [name]
  | operator => [name, number]
  | blank => [name, number, operator]

/-- How the standard lexer reads a class. -/
def rule : LexemeClass → LexerRule
  | name => ⟨"name", .name, 50⟩
  | number => ⟨"number", .number, 20⟩
  | operator => ⟨"operator", .operator, 10⟩
  | blank => ⟨"whitespace", .whitespace, 0⟩

end LexemeClass

section Lexemes

variable (position : Position) (vocabulary : Vocabulary)

/-- A text goes on with a lexeme of a class. It has no interval mark, no lexeme of an earlier class
and no longer one of the same class. -/
structure Decides (sort : LexemeClass) (text lexeme : List Char) : Prop where
  unmarked : ¬ intervalMark <+: text
  passed : ∀ other ∈ sort.earlier, Lacks (other.Spells position vocabulary) text
  longest : Longest (sort.Spells position vocabulary) text lexeme

/-- A text goes on with nothing that could be a word. -/
structure Foreign (text : List Char) : Prop where
  unmarked : ¬ intervalMark <+: text
  lacks : ∀ sort : LexemeClass, Lacks (sort.Spells position vocabulary) text

end Lexemes

theorem LexemeClass.nonempty {position : Position} {vocabulary : Vocabulary}
    (clear : "" ∉ vocabulary) {sort : LexemeClass} {lexeme : List Char}
    (spells : sort.Spells position vocabulary lexeme) : lexeme ≠ [] := by
  cases sort with
  | name =>
      rintro rfl
      exact Bool.false_ne_true spells
  | number =>
      obtain ⟨number, written, rfl⟩ := spells
      obtain ⟨c, rest, spelled, _⟩ := written.numeral.first
      rw [SignedNumeral.lexeme, spelled]
      exact List.append_ne_nil_of_right_ne_nil _ (List.cons_ne_nil _ _)
  | operator => exact Vocabulary.nonempty_of_spells clear spells
  | blank => exact spells.1

/-- What the front of a text is, if it is neither the end nor an interval literal. -/
theorem decides_or_foreign (position : Position) (vocabulary : Vocabulary) {text : List Char}
    (unmarked : ¬ intervalMark <+: text) :
    (∃ sort lexeme, Decides position vocabulary sort text lexeme) ∨
      Foreign position vocabulary text := by
  have search (sort : LexemeClass) := longest_or_lacks (sort.Spells position vocabulary) text
  rcases search .name with ⟨lexeme, longest⟩ | name
  · exact .inl ⟨.name, lexeme, unmarked, fun _ absurd => (List.not_mem_nil absurd).elim, longest⟩
  rcases search .number with ⟨lexeme, longest⟩ | number
  · refine .inl ⟨.number, lexeme, unmarked, fun other passed => ?_, longest⟩
    obtain rfl := List.mem_singleton.mp passed
    exact name
  rcases search .operator with ⟨lexeme, longest⟩ | operator
  · refine .inl ⟨.operator, lexeme, unmarked, fun other passed => ?_, longest⟩
    rcases List.mem_pair.mp passed with rfl | rfl
    · exact name
    · exact number
  rcases search .blank with ⟨lexeme, longest⟩ | blank
  · refine .inl ⟨.blank, lexeme, unmarked, fun other passed => ?_, longest⟩
    cases other with
    | name => exact name
    | number => exact number
    | operator => exact operator
    | blank => exact absurd passed (by decide)
  · refine .inr ⟨unmarked, fun sort => ?_⟩
    cases sort <;> assumption

/-- The number that a numeral denotes. -/
def DecimalNumeral.exact (numeral : DecimalNumeral) : ℚ :=
  natOfDigits numeral.whole + natOfDigits numeral.fraction / 10 ^ numeral.fraction.length

/-- The number of a type that a numeral stands for, if numbers are rounded to the type. The sign is
put on afterwards. -/
def SignedNumeral.nearest {α : Type} [Neg α] (round : ℚ → α) (number : SignedNumeral) : α :=
  if number.sign = some true then -round number.numeral.exact else round number.numeral.exact

section Division

variable {α : Type} [Scalar α]
variable (round : ℚ → α) (position : Position) (vocabulary : Vocabulary)

/-- The word that a text goes on with, and what it means. -/
inductive Means : Interner → (text lexeme : List Char) → TokenKind α → Interner → Prop
  | interval {interner : Interner} {text rest : List Char} {low high : DecimalNumeral} :
      IntervalFront text low high rest →
      Means interner text (intervalText low high)
        (.literal (.interval (.between (round low.exact) (round high.exact)))) interner
  | word {interner : Interner} {text lexeme : List Char} :
      Decides position vocabulary .name text lexeme → String.ofList lexeme ∈ vocabulary →
      Means interner text lexeme (.operator (String.ofList lexeme)) interner
  | symbol {interner : Interner} {text lexeme : List Char} :
      Decides position vocabulary .name text lexeme → String.ofList lexeme ∉ vocabulary →
      Means interner text lexeme (.literal (.symbol (interner.intern (String.ofList lexeme)).1))
        (interner.intern (String.ofList lexeme)).2
  | number {interner : Interner} {text : List Char} {number : SignedNumeral} :
      number.Written position → Decides position vocabulary .number text number.lexeme →
      Means interner text number.lexeme (.literal (.number (number.nearest round))) interner
  | operator {interner : Interner} {text lexeme : List Char} :
      Decides position vocabulary .operator text lexeme →
      Means interner text lexeme (.operator (String.ofList lexeme)) interner

/-- A piece of a text and the token that it makes. Blanks make none. -/
structure Stretch (α : Type) where
  lexeme : List Char
  token? : Option (Token α)

/-- The division of a text, and what is at the end of it: the names that were seen, or what is wrong
with the rest of the text. -/
inductive Divides : Interner → Location → List Char → List (Stretch α) →
    Except SyntaxError Interner → Prop
  | atEnd {interner : Interner} {location : Location} :
      Divides interner location [] [] (.ok interner)
  | token {interner interner' : Interner} {location : Location} {lexeme rest : List Char}
      {kind : TokenKind α} {stretches : List (Stretch α)} {ending : Except SyntaxError Interner} :
      Means round position vocabulary interner (lexeme ++ rest) lexeme kind interner' →
      Divides interner' (lexeme.foldl Location.after location) rest stretches ending →
      Divides interner location (lexeme ++ rest) (⟨lexeme, some ⟨kind, location⟩⟩ :: stretches)
        ending
  | blank {interner : Interner} {location : Location} {lexeme rest : List Char}
      {stretches : List (Stretch α)} {ending : Except SyntaxError Interner} :
      Decides position vocabulary .blank (lexeme ++ rest) lexeme →
      Divides interner (lexeme.foldl Location.after location) rest stretches ending →
      Divides interner location (lexeme ++ rest) (⟨lexeme, none⟩ :: stretches) ending
  | malformed {interner : Interner} {location : Location} {text right : List Char}
      {flaw : IntervalFlaw} : IntervalFlawed text right flaw →
      Divides interner location text []
        (.error ⟨.malformedInterval flaw, right.foldl Location.after location⟩)
  | unexpected {interner : Interner} {location : Location} {c : Char} {rest : List Char} :
      Foreign position vocabulary (c :: rest) →
      Divides interner location (c :: rest) [] (.error ⟨.unexpectedCharacter c, location⟩)

end Division

theorem natOfDigits_append (front back : List Char) :
    natOfDigits (front ++ back) = natOfDigits front * 10 ^ back.length + natOfDigits back := by
  have shifted (digits : List Char) : ∀ n, digits.foldl
      (fun n c => 10 * n + (c.toNat - '0'.toNat)) n = n * 10 ^ digits.length + natOfDigits digits := by
    induction digits with
    | nil => intro n; exact (Nat.mul_one n).symm
    | cons c digits ih =>
        intro n
        rw [natOfDigits, List.foldl_cons, List.foldl_cons, ih, ih (10 * 0 + _), List.length_cons,
          pow_succ]
        ring
  rw [natOfDigits, List.foldl_append, shifted]
  rfl

section Rounding

variable {α : Type} [Numeral α] {round : ℚ → α}
variable (rounded : ∀ digits places, Numeral.ofDecimal digits places = round (digits / 10 ^ places))

include rounded

theorem DecimalNumeral.value_eq_round (numeral : DecimalNumeral) :
    numeral.value = round numeral.exact := by
  rw [value, rounded, natOfDigits_append, exact]
  congr 1
  have power : (10 : ℚ) ^ numeral.fraction.length ≠ 0 := by positivity
  push_cast
  field_simp

theorem SignedNumeral.value_eq_nearest [Scalar α] (number : SignedNumeral) :
    number.value = number.nearest round := by
  rw [value, nearest, DecimalNumeral.value_eq_round rounded]

end Rounding

section Standard

open Recognizer

variable {α : Type} [Scalar α] [Numeral α]
variable {position : Position} {vocabulary : Vocabulary} {interner interner' : Interner}
variable {cursor : Cursor}

theorem scan_of_lacks {sort : LexemeClass}
    (lacks : Lacks (sort.Spells position vocabulary) cursor.rest) :
    sort.rule.recognizer.scan position vocabulary interner cursor =
      (.ok .declined : Except _ (Scan α)) := by
  cases sort with
  | name =>
      change Except.ok (scanName vocabulary interner cursor) = _
      rw [scanName, nameLexeme_eq_nil_iff.mpr lacks]
  | number => exact congrArg Except.ok (scanNumber_of_lacks lacks)
  | operator =>
      change Except.ok (scanOperator vocabulary interner cursor) = _
      rw [scanOperator, Vocabulary.longestSymbol?_of_lacks lacks]
  | blank =>
      change Except.ok (scanBlank cursor) = _
      rw [scanBlank, blankLength_eq_zero_iff.mpr lacks]
      rfl

theorem scanInterval_of_unmarked (unmarked : ¬ intervalMark <+: cursor.rest) :
    scanInterval interner cursor = (.ok .declined : Except _ (Scan α)) := by
  apply scanInterval_of_closed
  rw [Bool.eq_false_iff]
  intro opens
  rw [Bool.and_eq_true, beq_iff_eq, beq_iff_eq, Cursor.peek, Cursor.peek] at opens
  obtain ⟨first, second⟩ := opens
  apply unmarked
  generalize cursor.rest = text at first second
  cases text with
  | nil => cases first
  | cons c text =>
      cases text with
      | nil => cases second
      | cons d rest =>
          cases first
          cases second
          exact ⟨rest, rfl⟩

theorem firstScan_of_declined {before : List LexerRule} {rule : LexerRule} (after : List LexerRule)
    (declined : ∀ rule ∈ before, rule.recognizer.scan position vocabulary interner cursor =
      (.ok .declined : Except _ (Scan α)))
    {decided : Except SyntaxError (Scan α)}
    (found : rule.recognizer.scan position vocabulary interner cursor = decided)
    (kept : decided ≠ .ok .declined) :
    Lexer.firstScan position vocabulary interner cursor (before ++ rule :: after) = decided := by
  induction before with
  | nil =>
      rw [List.nil_append, Lexer.firstScan, found]
      split
      · exact absurd rfl kept
      · rfl
  | cons first before ih =>
      rw [List.cons_append, Lexer.firstScan, declined first List.mem_cons_self]
      exact ih fun rule member => declined rule (List.mem_cons_of_mem first member)

theorem firstScan_of_front {low high : DecimalNumeral} {rest : List Char}
    (front : IntervalFront cursor.rest low high rest) :
    Lexer.firstScan position vocabulary interner cursor Lexer.standard.rules =
      (.ok (.token (.literal (.interval (.between low.value high.value)))
        (cursor.advanceOver (intervalText low high)) interner) : Except _ (Scan α)) :=
  firstScan_of_declined _ (fun _ absurd => (List.not_mem_nil absurd).elim)
    (scanInterval_of_front front) nofun

theorem firstScan_of_flawed {right : List Char} {flaw : IntervalFlaw}
    (flawed : IntervalFlawed cursor.rest right flaw) :
    Lexer.firstScan position vocabulary interner cursor Lexer.standard.rules =
      (.error ⟨.malformedInterval flaw, (cursor.advanceOver right).location⟩ :
        Except _ (Scan α)) :=
  firstScan_of_declined _ (fun _ absurd => (List.not_mem_nil absurd).elim)
    (scanInterval_of_flawed flawed) nofun

theorem firstScan_of_decides {sort : LexemeClass} {lexeme : List Char}
    (decides : Decides position vocabulary sort cursor.rest lexeme) {scan : Scan α}
    (found : sort.rule.recognizer.scan position vocabulary interner cursor = .ok scan)
    (kept : scan ≠ .declined) :
    Lexer.firstScan position vocabulary interner cursor Lexer.standard.rules = .ok scan := by
  obtain ⟨after, rules⟩ : ∃ after, Lexer.standard.rules =
      (⟨"interval", .interval, 60⟩ :: sort.earlier.map LexemeClass.rule) ++ sort.rule :: after := by
    cases sort <;> exact ⟨_, rfl⟩
  rw [rules]
  refine firstScan_of_declined after ?_ found fun same => kept (Except.ok.inj same)
  rw [List.forall_mem_cons, List.forall_mem_map]
  exact ⟨scanInterval_of_unmarked decides.unmarked,
    fun other member => scan_of_lacks (decides.passed other member)⟩

theorem firstScan_of_foreign (foreign : Foreign position vocabulary cursor.rest) :
    Lexer.firstScan position vocabulary interner cursor Lexer.standard.rules =
      (.ok .declined : Except _ (Scan α)) := by
  have unmarked : Recognizer.interval.scan position vocabulary interner cursor =
      (.ok .declined : Except _ (Scan α)) := scanInterval_of_unmarked foreign.unmarked
  have declined (sort : LexemeClass) :
      sort.rule.recognizer.scan position vocabulary interner cursor =
        (.ok .declined : Except _ (Scan α)) := scan_of_lacks (foreign.lacks sort)
  change Lexer.firstScan position vocabulary interner cursor (⟨"interval", .interval, 60⟩ ::
    [LexemeClass.name, .number, .operator, .blank].map LexemeClass.rule) = _
  simp only [List.map_cons, List.map_nil, Lexer.firstScan, unmarked, declined]

theorem firstScan_of_blanks {lexeme : List Char}
    (decides : Decides position vocabulary .blank cursor.rest lexeme) :
    Lexer.firstScan position vocabulary interner cursor Lexer.standard.rules =
      (.ok (.blank (cursor.advanceOver lexeme)) : Except _ (Scan α)) := by
  refine firstScan_of_decides decides ?_ nofun
  change Except.ok (scanBlank cursor) = _
  obtain ⟨c, rest, rfl⟩ := List.exists_cons_of_ne_nil decides.longest.fits.1
  rw [scanBlank, blankLength_of_longest decides.longest]
  rfl

omit [Scalar α] [Numeral α] in
/-- A name is read whole, and is an operator if the vocabulary has it. -/
theorem scanName_of_longest {lexeme : List Char}
    (longest : Longest (fun lexeme => isIdentifier lexeme) cursor.rest lexeme) :
    scanName vocabulary interner cursor =
      if vocabulary.contains (String.ofList lexeme) then
        (.token (.operator (String.ofList lexeme)) (cursor.advanceOver lexeme) interner : Scan α)
      else
        .token (.literal (.symbol (interner.intern (String.ofList lexeme)).1))
          (cursor.advanceOver lexeme) (interner.intern (String.ofList lexeme)).2 := by
  cases lexeme with
  | nil => exact absurd longest.fits Bool.false_ne_true
  | cons c rest => rw [scanName, nameLexeme_of_longest longest]

variable {round : ℚ → α}

theorem firstScan_of_means
    (rounded : ∀ digits places, Numeral.ofDecimal digits places = round (digits / 10 ^ places))
    {lexeme : List Char} {kind : TokenKind α}
    (means : Means round position vocabulary interner cursor.rest lexeme kind interner') :
    Lexer.firstScan position vocabulary interner cursor Lexer.standard.rules =
      .ok (.token kind (cursor.advanceOver lexeme) interner') := by
  cases means with
  | interval front =>
      rw [← DecimalNumeral.value_eq_round rounded, ← DecimalNumeral.value_eq_round rounded]
      exact firstScan_of_front front
  | word decides known =>
      refine firstScan_of_decides decides (congrArg Except.ok ?_) nofun
      rw [scanName_of_longest decides.longest, if_pos (List.contains_iff_mem.mpr known)]
  | symbol decides unknown =>
      refine firstScan_of_decides decides (congrArg Except.ok ?_) nofun
      rw [scanName_of_longest decides.longest, if_neg (mt List.contains_iff_mem.mp unknown)]
  | number written decides =>
      rw [← SignedNumeral.value_eq_nearest rounded]
      exact firstScan_of_decides decides
        (congrArg Except.ok (scanNumber_of_longest written decides.longest)) nofun
  | operator decides =>
      refine firstScan_of_decides decides (congrArg Except.ok ?_) nofun
      rw [scanOperator, Vocabulary.longestSymbol?_of_longest decides.longest]
      dsimp only
      rw [String.toList_ofList]

omit [Numeral α] in
theorem Means.nonempty (clear : "" ∉ vocabulary) {text lexeme : List Char} {kind : TokenKind α}
    (means : Means round position vocabulary interner text lexeme kind interner') : lexeme ≠ [] := by
  cases means with
  | interval => exact List.cons_ne_nil _ _
  | word decides _ => exact LexemeClass.nonempty clear decides.longest.fits
  | symbol decides _ => exact LexemeClass.nonempty clear decides.longest.fits
  | number _ decides => exact LexemeClass.nonempty clear decides.longest.fits
  | operator decides => exact LexemeClass.nonempty clear decides.longest.fits

variable (round)

omit [Numeral α] in
/-- A lexeme that is not blank means something. -/
theorem means_of_decides {sort : LexemeClass} {text lexeme : List Char}
    (decides : Decides position vocabulary sort text lexeme) (solid : sort ≠ .blank) :
    ∃ kind interner', Means round position vocabulary interner text lexeme kind interner' := by
  cases sort with
  | name =>
      by_cases known : String.ofList lexeme ∈ vocabulary
      · exact ⟨_, _, .word decides known⟩
      · exact ⟨_, _, .symbol decides known⟩
  | number =>
      obtain ⟨number, written, rfl⟩ := decides.longest.fits
      exact ⟨_, _, .number written decides⟩
  | operator => exact ⟨_, _, .operator decides⟩
  | blank => exact absurd rfl solid

omit [Numeral α] in
/-- Every text has a division. -/
theorem exists_divides (clear : "" ∉ vocabulary) (interner : Interner) (location : Location)
    (text : List Char) :
    ∃ stretches ending, Divides round position vocabulary interner location text stretches ending := by
  induction length : text.length using Nat.strong_induction_on generalizing interner location text
  next _ ih =>
    subst length
    have later {lexeme rest : List Char} (spelled : lexeme ++ rest = text) (solid : lexeme ≠ [])
        (interner : Interner) : ∃ stretches ending, Divides round position vocabulary interner
          (lexeme.foldl Location.after location) rest stretches ending := by
      refine ih rest.length ?_ interner _ rest rfl
      have positive := List.length_pos_iff.mpr solid
      rw [← spelled, List.length_append]
      omega
    have onward {lexeme : List Char} {kind : TokenKind α} {interner' : Interner}
        (begins : lexeme <+: text)
        (means : Means round position vocabulary interner text lexeme kind interner') :
        ∃ stretches ending, Divides round position vocabulary interner location text stretches
          ending := by
      obtain ⟨rest, rfl⟩ := begins
      obtain ⟨stretches, ending, divides⟩ := later rfl (means.nonempty clear) interner'
      exact ⟨_, _, .token means divides⟩
    by_cases marked : intervalMark <+: text
    · rcases intervalFront_or_flawed marked with ⟨low, high, rest, front⟩ | ⟨right, flaw, flawed⟩
      · exact onward ⟨rest, front.spelled.symm⟩ (.interval front)
      · exact ⟨_, _, .malformed flawed⟩
    rcases decides_or_foreign position vocabulary marked with ⟨sort, lexeme, decides⟩ | foreign
    · by_cases blank : sort = .blank
      · subst blank
        obtain ⟨rest, rfl⟩ := decides.longest.begins
        obtain ⟨stretches, ending, divides⟩ := later rfl decides.longest.fits.1 interner
        exact ⟨_, _, .blank decides divides⟩
      · obtain ⟨kind, interner', means⟩ := means_of_decides round decides blank
        exact onward decides.longest.begins means
    · cases text with
      | nil => exact ⟨_, _, .atEnd⟩
      | cons c rest => exact ⟨_, _, .unexpected foreign⟩

variable {round}

omit [Numeral α] in
/-- The pieces of a division are the text, up to an error. -/
theorem Divides.concat {location : Location} {text : List Char} {stretches : List (Stretch α)}
    {ending : Except SyntaxError Interner}
    (divides : Divides round position vocabulary interner location text stretches ending) :
    ∃ rest, text = stretches.flatMap Stretch.lexeme ++ rest ∧
      ∀ names, ending = .ok names → rest = [] := by
  induction divides with
  | atEnd => exact ⟨[], rfl, fun _ _ => rfl⟩
  | token _ _ ih =>
      obtain ⟨rest, spelled, ends⟩ := ih
      exact ⟨rest, by rw [List.flatMap_cons, List.append_assoc, ← spelled], ends⟩
  | blank _ _ ih =>
      obtain ⟨rest, spelled, ends⟩ := ih
      exact ⟨rest, by rw [List.flatMap_cons, List.append_assoc, ← spelled], ends⟩
  | malformed => exact ⟨_, rfl, nofun⟩
  | unexpected => exact ⟨_, rfl, nofun⟩

/-- The standard lexer finds the tokens of a division, in a round for each of them and a last one. -/
theorem tokensOr_of_divides (clear : "" ∉ vocabulary)
    (rounded : ∀ digits places, Numeral.ofDecimal digits places = round (digits / 10 ^ places))
    {beyond : Interner → Cursor → Except SyntaxError (List (Token α) × Interner)}
    {location : Location} {text : List Char} {stretches : List (Stretch α)}
    {ending : Except SyntaxError Interner}
    (divides : Divides round position vocabulary interner location text stretches ending) :
    ∀ {rounds : Nat} {cursor : Cursor}, cursor.rest = text → cursor.location = location →
      text.length < rounds →
      Lexer.tokensOr (Lexer.standard.next position vocabulary) beyond rounds interner cursor =
        ending.map fun names => (stretches.filterMap Stretch.token?, names) := by
  induction divides with
  | atEnd =>
      rintro (_ | rounds) cursor finished rfl enough
      · cases enough
      · exact Lexer.tokensOr_of_end (Lexer.next_of_end finished) rfl
  | @token interner interner' location lexeme rest kind stretches ending means _ ih =>
      rintro (_ | rounds) cursor spelled rfl enough
      · cases enough
      have solid := means.nonempty clear
      rw [← spelled] at means
      have scanned := firstScan_of_means rounded means
      have more : lexeme ++ rest ≠ [] := List.append_ne_nil_of_left_ne_nil solid rest
      have word : kind ≠ .endOfInput := by
        rintro rfl
        exact (Lexer.firstScan_token scanned).2.1
      have positive := List.length_pos_iff.mpr solid
      rw [List.length_append] at enough
      rw [Lexer.tokensOr_of_token (Lexer.Lexes.token (spelled ▸ more) scanned).next word,
        ih (Cursor.rest_advanceOver spelled) (Cursor.location_advanceOver spelled) (by omega)]
      cases ending <;> rfl
  | @blank interner location lexeme rest stretches ending decides _ ih =>
      rintro (_ | rounds) cursor spelled rfl enough
      · cases enough
      rw [← spelled] at decides
      rw [List.length_append] at enough
      rw [Lexer.tokensOr_of_next (Lexer.next_of_blank (firstScan_of_blanks decides))]
      exact ih (Cursor.rest_advanceOver spelled) (Cursor.location_advanceOver spelled) (by omega)
  | @malformed interner location text right flaw flawed =>
      rintro (_ | rounds) cursor spelled rfl enough
      · cases enough
      have solid := flawed.nonempty
      obtain ⟨rest, split⟩ := flawed.begins
      rw [← spelled] at flawed
      rw [Lexer.tokensOr_of_error (Lexer.next_of_error (spelled ▸ solid)
          (firstScan_of_flawed flawed)),
        Cursor.location_advanceOver (spelled.trans split.symm)]
      rfl
  | unexpected foreign =>
      rintro (_ | rounds) cursor spelled rfl enough
      · cases enough
      rw [← spelled] at foreign
      exact Lexer.tokensOr_of_error (Lexer.next_of_declined spelled (firstScan_of_foreign foreign))

end Standard

variable {α : Type} [Scalar α] [Numeral α] {round : ℚ → α}
variable {position : Position} {vocabulary : Vocabulary} {interner : Interner}

/-- The tokens of a text, or the error in it, are those of a division of the text. -/
theorem tokens_iff_divides (clear : "" ∉ vocabulary)
    (rounded : ∀ digits places, Numeral.ofDecimal digits places = round (digits / 10 ^ places))
    {text : List Char} {result : Except SyntaxError (List (Token α) × Interner)} :
    Lexer.standard.tokens position vocabulary interner text = result ↔
      ∃ stretches ending,
        Divides round position vocabulary interner .start text stretches ending ∧
        result = ending.map (fun names => (stretches.filterMap Stretch.token?, names)) ∧
        ∃ rest, text = stretches.flatMap Stretch.lexeme ++ rest ∧
          ∀ names, ending = .ok names → rest = [] := by
  have found {stretches : List (Stretch α)} {ending : Except SyntaxError Interner}
      (divides : Divides round position vocabulary interner .start text stretches ending) :
      Lexer.standard.tokens position vocabulary interner text =
        ending.map fun names => (stretches.filterMap Stretch.token?, names) :=
    tokensOr_of_divides clear rounded divides rfl rfl (Nat.lt_succ_self _)
  constructor
  · rintro rfl
    obtain ⟨stretches, ending, divides⟩ := exists_divides round clear interner .start text
    exact ⟨stretches, ending, divides, found divides, divides.concat⟩
  · rintro ⟨stretches, ending, divides, rfl, _⟩
    exact found divides

/-- The longer of two operators, a signed number and a comment. -/
theorem tokens_divided_comparison :
    let vocabulary : Vocabulary := ["<", "<=", "if"]
    let text := "if x<=-1.5 # I".toList
    let tokens : List (Token (Exact ℚ)) := [⟨.operator "if", ⟨0, 1, 1⟩⟩,
      ⟨.literal (.symbol ⟨0, "x"⟩), ⟨3, 1, 4⟩⟩, ⟨.operator "<=", ⟨4, 1, 5⟩⟩,
      ⟨.literal (.number ⟨-3 / 2⟩), ⟨6, 1, 7⟩⟩]
    let names : Interner := (Interner.empty.intern "x").2
    "" ∉ vocabulary ∧
      (∀ digits places, Numeral.ofDecimal digits places = Exact.mk (digits / 10 ^ places : ℚ)) ∧
      Lexer.standard.tokens .operand vocabulary .empty text = .ok (tokens, names) ∧
      ∃ stretches ending,
        Divides Exact.mk .operand vocabulary .empty .start text stretches ending ∧
        .ok (tokens, names) =
          ending.map (fun names => (stretches.filterMap Stretch.token?, names)) ∧
        ∃ rest, text = stretches.flatMap Stretch.lexeme ++ rest ∧
          ∀ names, ending = .ok names → rest = [] := by
  intro vocabulary text tokens names
  have clear : "" ∉ vocabulary := by decide
  have rounded (digits places : ℕ) :
      Numeral.ofDecimal digits places = Exact.mk (digits / 10 ^ places : ℚ) := rfl
  have found : Lexer.standard.tokens .operand vocabulary .empty text = .ok (tokens, names) := by
    with_unfolding_all rfl
  exact ⟨clear, rounded, found, (tokens_iff_divides clear rounded).mp found⟩

end IntervalCalc
