import IntervalCalc.Proofs.Lexing.Printed

/-!
What the words of the language are. Four classes of lexemes, each described without a lexer, and for
each of them the function that reads it: it finds the longest lexeme of its class that a text begins
with, and nothing where there is none.
-/

namespace IntervalCalc

/-- The longest beginning of a text that has a property. -/
structure Longest (P : List Char → Prop) (text lexeme : List Char) : Prop where
  begins : lexeme <+: text
  fits : P lexeme
  most : ∀ other, other <+: text → P other → other.length ≤ lexeme.length

/-- Nothing that a text begins with has a property. -/
def Lacks (P : List Char → Prop) (text : List Char) : Prop :=
  ∀ other, other <+: text → ¬ P other

section Longest

variable {P Q : List Char → Prop} {text lexeme other : List Char}

theorem Longest.unique (h : Longest P text lexeme) (h' : Longest P text other) : lexeme = other :=
  (List.prefix_of_prefix_length_le h.begins h'.begins
    (h'.most lexeme h.begins h.fits)).eq_of_length
    (Nat.le_antisymm (h'.most lexeme h.begins h.fits) (h.most other h'.begins h'.fits))

theorem Longest.not_lacks (h : Longest P text lexeme) : ¬ Lacks P text :=
  fun none => none lexeme h.begins h.fits

/-- A beginning that every other one goes on to is the longest. -/
theorem Longest.of_begins (begins : lexeme <+: text) (fits : P lexeme)
    (most : ∀ other, other <+: text → P other → other <+: lexeme) : Longest P text lexeme :=
  ⟨begins, fits, fun other h h' => (most other h h').length_le⟩

section Front

variable {front rest : List Char}
variable (same : ∀ other, other <+: front ++ rest → (P other ↔ ∃ part, other = front ++ part ∧ Q part))

include same

/-- If what has the property goes on behind a common front, the longest goes on with the longest. -/
theorem Longest.append_iff :
    Longest P (front ++ rest) (front ++ lexeme) ↔ Longest Q rest lexeme := by
  have part {other : List Char} (begins : front ++ other <+: front ++ rest) :
      P (front ++ other) ↔ Q other := by
    rw [same _ begins]
    exact ⟨fun ⟨_, equal, fits⟩ => List.append_cancel_left equal ▸ fits, fun fits => ⟨_, rfl, fits⟩⟩
  constructor
  · intro h
    refine ⟨(List.prefix_append_right_inj front).mp h.begins, (part h.begins).mp h.fits, ?_⟩
    intro other begins fits
    have begins' := (List.prefix_append_right_inj front).mpr begins
    have less := h.most _ begins' ((part begins').mpr fits)
    rw [List.length_append, List.length_append] at less
    omega
  · intro h
    have begins := (List.prefix_append_right_inj front).mpr h.begins
    refine ⟨begins, (part begins).mpr h.fits, fun other begins' fits => ?_⟩
    obtain ⟨piece, rfl, fits'⟩ := (same other begins').mp fits
    have less := h.most piece ((List.prefix_append_right_inj front).mp begins') fits'
    rw [List.length_append, List.length_append]
    omega

theorem Lacks.append_iff : Lacks P (front ++ rest) ↔ Lacks Q rest := by
  constructor
  · intro h other begins fits
    have begins' := (List.prefix_append_right_inj front).mpr begins
    exact h _ begins' ((same _ begins').mpr ⟨other, rfl, fits⟩)
  · intro h other begins fits
    obtain ⟨piece, rfl, fits'⟩ := (same other begins).mp fits
    exact h piece ((List.prefix_append_right_inj front).mp begins) fits'

end Front

end Longest

theorem longest_or_lacks (P : List Char → Prop) (text : List Char) :
    (∃ lexeme, Longest P text lexeme) ∨ Lacks P text := by
  -- by induction on how much of the text is left over: no beginning that leaves less of it has the
  -- property
  have down (k : Nat) : (∃ lexeme, Longest P text lexeme) ∨
      ∀ other, other <+: text → P other → other.length + k ≤ text.length := by
    induction k with
    | zero => exact .inr fun other begins _ => begins.length_le
    | succ k ih =>
        rcases ih with found | bound
        · exact .inl found
        · by_cases exact : ∃ lexeme, lexeme <+: text ∧ P lexeme ∧ lexeme.length + k = text.length
          · obtain ⟨lexeme, begins, fits, length⟩ := exact
            refine .inl ⟨lexeme, begins, fits, fun other begins' fits' => ?_⟩
            have less := bound other begins' fits'
            omega
          · refine .inr fun other begins fits => ?_
            have less := bound other begins fits
            have differs : other.length + k ≠ text.length := fun same =>
              exact ⟨other, begins, fits, same⟩
            omega
  refine (down (text.length + 1)).imp id fun bound other begins fits => ?_
  have absurd := bound other begins fits
  omega

theorem prefix_nameLexeme {text other : List Char} (begins : other <+: text)
    (identifier : isIdentifier other) : other <+: nameLexeme text := by
  cases other with
  | nil => cases identifier
  | cons c rest =>
      rw [isIdentifier, Bool.and_eq_true, List.all_eq_true] at identifier
      obtain ⟨more, rfl⟩ := begins
      rw [List.cons_append, nameLexeme, if_pos identifier.1,
        List.takeWhile_append_of_pos identifier.2]
      exact List.cons_prefix_cons.mpr ⟨rfl, List.prefix_append rest _⟩

theorem longest_nameLexeme {text : List Char} (found : nameLexeme text ≠ []) :
    Longest (fun lexeme => isIdentifier lexeme) text (nameLexeme text) :=
  have begins := nameLexeme_prefix text
  .of_begins begins (isIdentifier_nameLexeme found)
    fun _ begins identifier => prefix_nameLexeme begins identifier

theorem nameLexeme_eq_nil_iff {text : List Char} :
    nameLexeme text = [] ↔ Lacks (fun lexeme => isIdentifier lexeme) text := by
  constructor
  · intro none other begins identifier
    have nothing := prefix_nameLexeme begins identifier
    rw [none, List.prefix_nil] at nothing
    subst nothing
    cases identifier
  · intro lacks
    by_contra found
    have begins := nameLexeme_prefix text
    exact lacks _ begins (isIdentifier_nameLexeme found)

theorem nameLexeme_of_longest {text lexeme : List Char}
    (longest : Longest (fun lexeme => isIdentifier lexeme) text lexeme) :
    nameLexeme text = lexeme :=
  (longest_nameLexeme fun none => longest.not_lacks (nameLexeme_eq_nil_iff.mp none)).unique longest

namespace DecimalNumeral

variable {numeral : DecimalNumeral} {text : List Char}

/-- Digits, and perhaps a point and more digits. -/
def Spells (lexeme : List Char) : Prop :=
  ∃ numeral : DecimalNumeral, numeral.Written ∧ numeral.lexeme = lexeme

theorem whole_begins (numeral : DecimalNumeral) : numeral.whole <+: numeral.lexeme := by
  unfold lexeme
  split
  · exact List.prefix_rfl
  · exact List.prefix_append _ _

theorem written_of_read? (found : read? text = some numeral) : numeral.Written := by
  have nonempty := whole_ne_nil found
  have digits (text : List Char) : ∀ c ∈ text.takeWhile Char.isDigit, c.isDigit :=
    List.all_eq_true.mp List.all_takeWhile
  unfold read? at found
  split at found
  · cases found
  · cases found
    exact ⟨nonempty, digits _, digits _⟩
  · cases found
    exact ⟨nonempty, digits _, fun _ absurd => by cases absurd⟩

/-- A numeral that the text begins with is the beginning of the one that is read. -/
theorem read?_of_begins (written : numeral.Written) (begins : numeral.lexeme <+: text) :
    ∃ longest, read? text = some longest ∧ numeral.lexeme <+: longest.lexeme := by
  obtain ⟨whole, fraction⟩ := numeral
  obtain ⟨c, digits, rfl⟩ : ∃ c digits, whole = c :: digits :=
    List.exists_cons_of_ne_nil written.nonempty
  obtain ⟨rest, rfl⟩ := begins
  cases fraction with
  | nil =>
      have first : ((c :: digits) ++ rest).takeWhile Char.isDigit =
          (c :: digits) ++ rest.takeWhile Char.isDigit :=
        List.takeWhile_append_of_pos written.whole
      have begins (fraction : List Char) : (c :: digits) <+:
          lexeme ⟨(c :: digits) ++ rest.takeWhile Char.isDigit, fraction⟩ :=
        (List.prefix_append (c :: digits) _).trans (whole_begins ⟨_, fraction⟩)
      change ∃ longest, read? ((c :: digits) ++ rest) = some longest ∧ _
      unfold read?
      rw [first]
      split
      next none => cases none
      · exact ⟨_, rfl, begins _⟩
      · exact ⟨_, rfl, begins _⟩
  | cons d more =>
      have point : ∀ e ∈ ('.' :: d :: more ++ rest).head?, e.isDigit = false := by
        intro e first
        cases first
        rfl
      have parts : (c :: digits) ++ '.' :: d :: more ++ rest =
          (c :: digits) ++ ('.' :: d :: more ++ rest) := List.append_assoc _ _ _
      refine ⟨⟨c :: digits, (d :: more ++ rest).takeWhile Char.isDigit⟩, ?_, ?_⟩
      · change read? ((c :: digits) ++ '.' :: d :: more ++ rest) = _
        unfold read?
        rw [parts, takeWhile_append_apart written.whole point,
          dropWhile_append_apart written.whole point]
        rfl
      · have all : (d :: more ++ rest).takeWhile Char.isDigit =
            d :: more ++ rest.takeWhile Char.isDigit :=
          List.takeWhile_append_of_pos written.fraction
        rw [all]
        change (c :: digits) ++ '.' :: d :: more <+:
          (c :: digits) ++ '.' :: (d :: more ++ rest.takeWhile Char.isDigit)
        rw [List.prefix_append_right_inj]
        exact List.prefix_append ('.' :: d :: more) _

theorem longest_of_read? (found : read? text = some numeral) :
    Longest Spells text numeral.lexeme := by
  have begins := lexeme_prefix found
  refine .of_begins begins ⟨numeral, written_of_read? found, rfl⟩ ?_
  rintro _ begins ⟨other, written, rfl⟩
  obtain ⟨longest, read, most⟩ := read?_of_begins written begins
  cases found.symm.trans read
  exact most

theorem read?_eq_none_iff : read? text = none ↔ Lacks Spells text := by
  constructor
  · rintro none _ begins ⟨other, written, rfl⟩
    obtain ⟨longest, read, _⟩ := read?_of_begins written begins
    cases none.symm.trans read
  · intro lacks
    by_contra found
    obtain ⟨numeral, read⟩ := Option.ne_none_iff_exists'.mp found
    exact (longest_of_read? read).not_lacks lacks

theorem read?_lexeme (written : numeral.Written) : read? numeral.lexeme = some numeral := by
  have read := @read?_append_delimited numeral [] written fun _ absurd => by cases absurd
  rwa [List.append_nil] at read

/-- A numeral can be read off its lexeme. -/
theorem Written.eq_of_lexeme {other : DecimalNumeral} (written : numeral.Written)
    (written' : other.Written) (same : numeral.lexeme = other.lexeme) : numeral = other := by
  have read := read?_lexeme written
  rw [same, read?_lexeme written'] at read
  exact (Option.some.inj read).symm

theorem read?_of_longest (written : numeral.Written)
    (longest : Longest Spells text numeral.lexeme) : read? text = some numeral := by
  cases read : read? text with
  | none => exact absurd (read?_eq_none_iff.mp read) longest.not_lacks
  | some found =>
      have same := (longest_of_read? read).unique longest
      rw [(written_of_read? read).eq_of_lexeme written same]

end DecimalNumeral

/-- A numeral with a sign or without one. The sign tells whether it is a minus. -/
structure SignedNumeral where
  sign : Option Bool
  numeral : DecimalNumeral

def signText : Option Bool → List Char
  | none => []
  | some false => ['+']
  | some true => ['-']

namespace SignedNumeral

def lexeme (number : SignedNumeral) : List Char :=
  signText number.sign ++ number.numeral.lexeme

def value {α : Type} [Scalar α] [Numeral α] (number : SignedNumeral) : α :=
  if number.sign = some true then -number.numeral.value else number.numeral.value

/-- A sign belongs to a numeral only where an operand may begin. -/
structure Written (position : Position) (number : SignedNumeral) : Prop where
  numeral : number.numeral.Written
  sign : number.sign ≠ none → position = .operand

def Spells (position : Position) (lexeme : List Char) : Prop :=
  ∃ number : SignedNumeral, number.Written position ∧ number.lexeme = lexeme

end SignedNumeral

/-- The sign that a number at the front of a text would have. -/
def signAhead (position : Position) (text : List Char) : Option Bool :=
  if position = .operand then (sign? text).map (·.1) else none

section Signs

variable {position : Position} {text : List Char}

theorem sign?_eq_some_iff {negative : Bool} {rest : List Char} :
    sign? text = some (negative, rest) ↔ text = signText (some negative) ++ rest := by
  constructor
  · intro found
    unfold sign? at found
    split at found <;> cases found <;> rfl
  · rintro rfl
    cases negative <;> rfl

theorem signAhead_prefix (position : Position) (text : List Char) :
    signText (signAhead position text) <+: text := by
  unfold signAhead
  split
  · cases found : sign? text with
    | none => exact List.nil_prefix
    | some sign =>
        rw [sign?_eq_some_iff.mp found]
        exact List.prefix_append _ _
  · exact List.nil_prefix

theorem sign_eq_signAhead {number : SignedNumeral} (written : number.Written position)
    (begins : number.lexeme <+: text) : number.sign = signAhead position text := by
  obtain ⟨sign, numeral⟩ := number
  obtain ⟨rest, rfl⟩ := begins
  unfold signAhead
  cases sign with
  | none =>
      obtain ⟨c, digits, spelled, digit⟩ := written.numeral.first
      have unsigned : sign? (numeral.lexeme ++ rest) = none := by
        rw [spelled, List.cons_append]
        unfold sign?
        split
        next same => cases same; cases digit
        next same => cases same; cases digit
        · rfl
      split
      · change none = (sign? (numeral.lexeme ++ rest)).map _
        rw [unsigned]
        rfl
      · rfl
  | some negative =>
      have signed : sign? (signText (some negative) ++ numeral.lexeme ++ rest) =
          some (negative, numeral.lexeme ++ rest) :=
        sign?_eq_some_iff.mpr (List.append_assoc _ numeral.lexeme rest)
      rw [if_pos (written.sign (Option.some_ne_none _))]
      change some negative = (sign? (signText (some negative) ++ numeral.lexeme ++ rest)).map _
      rw [signed]
      rfl

theorem signAhead_operand (signed : signAhead position text ≠ none) : position = .operand := by
  unfold signAhead at signed
  split at signed
  · assumption
  · exact absurd rfl signed

namespace SignedNumeral

theorem spells_iff_of_begins (other : List Char) (begins : other <+: text) :
    Spells position other ↔
      ∃ part, other = signText (signAhead position text) ++ part ∧ DecimalNumeral.Spells part := by
  constructor
  · rintro ⟨number, written, rfl⟩
    rw [← sign_eq_signAhead written begins]
    exact ⟨_, rfl, number.numeral, written.numeral, rfl⟩
  · rintro ⟨_, rfl, numeral, written, rfl⟩
    exact ⟨⟨signAhead position text, numeral⟩, ⟨written, signAhead_operand⟩, rfl⟩

variable {rest : List Char} (split : text = signText (signAhead position text) ++ rest)

include split

/-- A number is its sign and the longest numeral behind it. -/
theorem longest_iff {numeral : DecimalNumeral} :
    Longest (Spells position) text (lexeme ⟨signAhead position text, numeral⟩) ↔
      Longest DecimalNumeral.Spells rest numeral.lexeme := by
  have same := @spells_iff_of_begins position text
  unfold lexeme
  dsimp only
  generalize signText (signAhead position text) = front at split same ⊢
  subst split
  exact Longest.append_iff same

theorem lacks_iff : Lacks (Spells position) text ↔ Lacks DecimalNumeral.Spells rest := by
  have same := @spells_iff_of_begins position text
  generalize signText (signAhead position text) = front at split same
  subst split
  exact Lacks.append_iff same

end SignedNumeral

end Signs

namespace Recognizer

variable {α : Type} [Scalar α] [Numeral α] {position : Position} {interner : Interner}
variable {cursor : Cursor}

theorem scanNumber_eq {rest : List Char}
    (split : cursor.rest = signText (signAhead position cursor.rest) ++ rest) :
    scanNumber position interner cursor =
      ((DecimalNumeral.read? rest).map (SignedNumeral.mk (signAhead position cursor.rest))).elim
        (.declined : Scan α) fun number =>
          .token (.literal (.number number.value)) (cursor.advanceOver number.lexeme) interner := by
  unfold scanNumber
  dsimp only
  cases sign : signAhead position cursor.rest with
  | none =>
      have unsigned : (if position = .operand then sign? cursor.rest else none) = none := by
        unfold signAhead at sign
        split
        next operand =>
          rw [if_pos operand] at sign
          exact Option.map_eq_none_iff.mp sign
        · rfl
      rw [sign] at split
      rw [unsigned, show cursor.rest = rest from split]
      cases DecimalNumeral.read? rest <;> rfl
  | some negative =>
      have operand : position = .operand :=
        signAhead_operand (by rw [sign]; exact Option.some_ne_none _)
      rw [sign] at split
      rw [if_pos operand, sign?_eq_some_iff.mpr split]
      dsimp only
      cases DecimalNumeral.read? rest with
      | none => rfl
      | some numeral =>
          have passed : (cursor.advance 1).advanceOver numeral.lexeme =
              cursor.advanceOver (SignedNumeral.lexeme ⟨some negative, numeral⟩) := by
            unfold Cursor.advanceOver SignedNumeral.lexeme
            rw [Cursor.advance_advance, List.length_append]
            cases negative <;> rfl
          dsimp only [Option.map_some, Option.elim_some]
          rw [passed]
          cases negative <;> rfl

theorem scanNumber_of_longest {number : SignedNumeral} (written : number.Written position)
    (longest : Longest (SignedNumeral.Spells position) cursor.rest number.lexeme) :
    scanNumber position interner cursor =
      (.token (.literal (.number number.value)) (cursor.advanceOver number.lexeme) interner :
        Scan α) := by
  obtain ⟨sign, numeral⟩ := number
  obtain rfl : sign = _ := sign_eq_signAhead written longest.begins
  obtain ⟨rest, split⟩ := signAhead_prefix position cursor.rest
  rw [SignedNumeral.longest_iff split.symm] at longest
  rw [scanNumber_eq split.symm, DecimalNumeral.read?_of_longest written.numeral longest]
  rfl

theorem scanNumber_of_lacks (lacks : Lacks (SignedNumeral.Spells position) cursor.rest) :
    scanNumber position interner cursor = (.declined : Scan α) := by
  obtain ⟨rest, split⟩ := signAhead_prefix position cursor.rest
  rw [SignedNumeral.lacks_iff split.symm] at lacks
  rw [scanNumber_eq split.symm, DecimalNumeral.read?_eq_none_iff.mpr lacks]
  rfl

end Recognizer

/-- A fold whose result never gets smaller ends with something as large as every member. -/
theorem exists_foldl_ge {β : Type} (size : β → Nat) {step : Option β → β → Option β}
    (grows : ∀ longest next, ∃ best, step longest next = some best ∧ size next ≤ size best ∧
      ∀ old ∈ longest, size old ≤ size best) (members : List β) :
    ∀ (first : Option β) (member : β), member ∈ members ∨ first = some member →
      ∃ best, members.foldl step first = some best ∧ size member ≤ size best := by
  induction members with
  | nil =>
      intro first member known
      exact ⟨member, known.resolve_left List.not_mem_nil, Nat.le_refl _⟩
  | cons next members ih =>
      intro first member known
      obtain ⟨best, stepped, newer, older⟩ := grows first next
      rw [List.foldl_cons, stepped]
      rcases known with known | known
      · rcases List.mem_cons.mp known with rfl | known
        · obtain ⟨last, found, more⟩ := ih (some best) best (.inr rfl)
          exact ⟨last, found, Nat.le_trans newer more⟩
        · exact ih (some best) member (.inl known)
      · obtain ⟨last, found, more⟩ := ih (some best) best (.inr rfl)
        exact ⟨last, found, Nat.le_trans (older member known) more⟩

namespace Vocabulary

variable {vocabulary : Vocabulary} {text lexeme : List Char}

/-- The name of an operator that is not spelled like a name. -/
def Spells (vocabulary : Vocabulary) (lexeme : List Char) : Prop :=
  String.ofList lexeme ∈ vocabulary ∧ ¬ isIdentifier lexeme

theorem nonempty_of_spells (clear : "" ∉ vocabulary) (spells : vocabulary.Spells lexeme) :
    lexeme ≠ [] := by
  rintro rfl
  exact clear spells.1

/-- Whatever operator the text begins with, one as long is read. -/
theorem longestSymbol?_of_begins (begins : lexeme <+: text) (spells : vocabulary.Spells lexeme) :
    ∃ best, vocabulary.longestSymbol? text = some best ∧ lexeme.length ≤ best.toList.length := by
  have fits : String.ofList lexeme ∈ vocabulary.filter fun name =>
      name.toList.isPrefixOf text && !isIdentifier name.toList := by
    refine List.mem_filter.mpr ⟨spells.1, ?_⟩
    rw [String.toList_ofList, List.isPrefixOf_iff_prefix.mpr begins, Bool.eq_false_iff.mpr spells.2]
    rfl
  refine (exists_foldl_ge String.length ?_ _ none _ (.inl fits)).imp fun best last => ⟨last.1, ?_⟩
  · intro longest next
    cases longest with
    | none => exact ⟨next, rfl, Nat.le_refl _, fun _ absurd => by cases absurd⟩
    | some best =>
        dsimp only
        split
        next longer => exact ⟨next, rfl, Nat.le_refl _, fun _ same => by cases same; omega⟩
        next shorter => exact ⟨best, rfl, by omega, fun _ same => by cases same; exact Nat.le_refl _⟩
  · rw [String.length_toList, ← String.length_ofList]
    exact last.2

theorem longestSymbol?_spells {best : String} (found : vocabulary.longestSymbol? text = some best) :
    best.toList <+: text ∧ vocabulary.Spells best.toList := by
  have begins := (longestSymbol?_some found).2
  rw [← longestSymbol?_symbols] at found
  obtain ⟨known, plain⟩ := List.mem_filter.mp (longestSymbol?_some found).1
  rw [Bool.not_eq_true'] at plain
  refine ⟨begins, ?_, Bool.eq_false_iff.mp plain⟩
  rw [String.ofList_toList]
  exact known

theorem longestSymbol?_of_longest (longest : Longest vocabulary.Spells text lexeme) :
    vocabulary.longestSymbol? text = some (String.ofList lexeme) := by
  obtain ⟨best, found, longer⟩ := longestSymbol?_of_begins longest.begins longest.fits
  obtain ⟨begins, spells⟩ := longestSymbol?_spells found
  have longest' : Longest vocabulary.Spells text best.toList :=
    ⟨begins, spells, fun other begins spells => Nat.le_trans (longest.most other begins spells) longer⟩
  rw [found, longest.unique longest', String.ofList_toList]

theorem longestSymbol?_of_lacks (lacks : Lacks vocabulary.Spells text) :
    vocabulary.longestSymbol? text = none := by
  by_contra some
  obtain ⟨best, found⟩ := Option.ne_none_iff_exists'.mp some
  obtain ⟨begins, spells⟩ := longestSymbol?_spells found
  exact lacks _ begins spells

end Vocabulary

/-- White space and comments. A run is open if it ends inside a comment. -/
inductive Blanks : (inComment : Bool) → List Char → Prop
  | none : Blanks false []
  | blank {c : Char} {inComment : Bool} {run : List Char} : Unicode.isBlank c →
      Blanks inComment run → Blanks inComment (c :: run)
  | comment {inComment : Bool} {body run : List Char} : '\n' ∉ body → Blanks inComment run →
      Blanks inComment ('#' :: (body ++ '\n' :: run))
  | openComment {body : List Char} : '\n' ∉ body → Blanks true ('#' :: body)

/-- A run of white space and comments that is not empty. -/
def BlankRun (run : List Char) : Prop :=
  run ≠ [] ∧ ∃ inComment, Blanks inComment run

section Blanks

variable {inComment : Bool} {run rest text : List Char}

theorem blankLength_hash (text : List Char) :
    blankLength false ('#' :: text) = blankLength true text + 1 := by
  have solid : Unicode.isBlank '#' = false := by decide
  rw [blankLength, if_neg (Bool.eq_false_iff.mp solid), if_pos (beq_self_eq_true '#')]

/-- A comment goes on to the end of the line. -/
theorem blankLength_comment {body : List Char} (inLine : '\n' ∉ body) :
    blankLength true (body ++ '\n' :: rest) = body.length + 1 + blankLength false rest := by
  induction body with
  | nil =>
      change blankLength false rest + 1 = 0 + 1 + _
      omega
  | cons c body ih =>
      have other : (c != '\n') = true := bne_iff_ne.mpr fun same => inLine (by rw [same]; simp)
      rw [List.cons_append, blankLength, other, ih fun member => inLine (by simp [member]),
        List.length_cons]
      omega

theorem blankLength_openComment {body : List Char} (inLine : '\n' ∉ body) :
    blankLength true body = body.length := by
  induction body with
  | nil => rfl
  | cons c body ih =>
      have other : (c != '\n') = true := bne_iff_ne.mpr fun same => inLine (by rw [same]; simp)
      rw [blankLength, other, ih fun member => inLine (by simp [member]), List.length_cons]

/-- What follows a run that ends outside of comments is read as if nothing were before it. -/
theorem Blanks.blankLength_append (blanks : Blanks inComment run) (closed : inComment = false)
    (rest : List Char) : blankLength false (run ++ rest) = run.length + blankLength false rest := by
  induction blanks with
  | none => rw [List.nil_append, List.length_nil, Nat.zero_add]
  | blank first _ ih =>
      rw [List.cons_append, blankLength, if_pos first, ih closed, List.length_cons]
      omega
  | @comment _ body run inLine _ ih =>
      rw [List.cons_append, blankLength_hash, List.append_assoc, List.cons_append,
        blankLength_comment inLine, ih closed, List.length_cons, List.length_append,
        List.length_cons]
      omega
  | openComment => cases closed

theorem Blanks.blankLength_eq (blanks : Blanks inComment run) :
    blankLength false run = run.length := by
  induction blanks with
  | none => rfl
  | blank first _ ih => rw [blankLength, if_pos first, ih, List.length_cons]
  | @comment _ body run inLine _ ih =>
      rw [blankLength_hash, blankLength_comment inLine, ih, List.length_cons, List.length_append,
        List.length_cons]
      omega
  | openComment inLine =>
      rw [blankLength_hash, blankLength_openComment inLine, List.length_cons]

/-- A text has at least as many blanks at its front as each of its beginnings. -/
theorem blankLength_le_append (inComment : Bool) (run rest : List Char) :
    blankLength inComment run ≤ blankLength inComment (run ++ rest) := by
  fun_induction blankLength inComment run with
  | case1 => exact Nat.zero_le _
  | case2 c run ih => exact Nat.succ_le_succ ih
  | case3 c run blank ih =>
      rw [List.cons_append, blankLength, if_pos blank]
      exact Nat.succ_le_succ ih
  | case4 c run solid comment ih =>
      rw [List.cons_append, blankLength, if_neg solid, if_pos comment]
      exact Nat.succ_le_succ ih
  | case5 => exact Nat.zero_le _

/-- A comment may have any more characters at its front, but no line feed. -/
theorem Blanks.in_comment {c : Char} (blanks : Blanks inComment ('#' :: run)) (other : c ≠ '\n') :
    Blanks inComment ('#' :: c :: run) := by
  have fresh {body : List Char} (inLine : '\n' ∉ body) : '\n' ∉ c :: body := by
    rw [List.mem_cons, not_or]
    exact ⟨fun same => other same.symm, inLine⟩
  cases blanks with
  | blank first _ => exact absurd first (by decide)
  | @comment _ body _ inLine later => exact .comment (fresh inLine) later
  | openComment inLine => exact .openComment (fresh inLine)

/-- What is passed over at the front of a text is white space and comments. -/
theorem blanks_take (start : Bool) (text : List Char) : ∃ inComment, Blanks inComment
    ((if start then ['#'] else []) ++ text.take (blankLength start text)) := by
  fun_induction blankLength start text with
  | case1 start =>
      cases start with
      | false => exact ⟨false, .none⟩
      | true => exact ⟨true, .openComment List.not_mem_nil⟩
  | case2 c rest ih =>
      rw [List.take_succ_cons]
      obtain ⟨inComment, later⟩ := ih
      by_cases newLine : c = '\n'
      · subst newLine
        exact ⟨inComment, .comment List.not_mem_nil later⟩
      · rw [bne_iff_ne.mpr newLine] at later ⊢
        exact ⟨inComment, later.in_comment newLine⟩
  | case3 c rest blank ih =>
      obtain ⟨inComment, later⟩ := ih
      exact ⟨inComment, .blank blank later⟩
  | case4 c rest solid hash ih =>
      obtain ⟨inComment, later⟩ := ih
      obtain rfl : c = '#' := beq_iff_eq.mp hash
      exact ⟨inComment, later⟩
  | case5 => exact ⟨false, .none⟩

theorem Blanks.length_le (blanks : Blanks inComment run) (begins : run <+: text) :
    run.length ≤ blankLength false text := by
  obtain ⟨rest, rfl⟩ := begins
  rw [← blanks.blankLength_eq]
  exact blankLength_le_append false run rest

theorem longest_blanks (more : blankLength false text ≠ 0) :
    Longest BlankRun text (text.take (blankLength false text)) := by
  have length : (text.take (blankLength false text)).length = blankLength false text := by
    rw [List.length_take, Nat.min_eq_left (blankLength_le false text)]
  refine ⟨List.take_prefix _ _, ⟨?_, blanks_take false text⟩, ?_⟩
  · intro nothing
    rw [nothing] at length
    exact more length.symm
  · rintro other begins ⟨_, _, blanks⟩
    rw [length]
    exact blanks.length_le begins

theorem blankLength_of_longest (longest : Longest BlankRun text run) :
    blankLength false text = run.length := by
  obtain ⟨some, _, blanks⟩ := longest.fits
  have least := blanks.length_le longest.begins
  have more : blankLength false text ≠ 0 := by
    intro none
    rw [none] at least
    exact some (List.eq_nil_of_length_eq_zero (Nat.le_zero.mp least))
  rw [longest.unique (longest_blanks more), List.length_take,
    Nat.min_eq_left (blankLength_le false text)]

theorem blankLength_eq_zero_iff : blankLength false text = 0 ↔ Lacks BlankRun text := by
  constructor
  · rintro none other begins ⟨some, _, blanks⟩
    have least := blanks.length_le begins
    rw [none] at least
    exact some (List.eq_nil_of_length_eq_zero (Nat.le_zero.mp least))
  · intro lacks
    by_contra more
    exact (longest_blanks more).not_lacks lacks

end Blanks

end IntervalCalc
