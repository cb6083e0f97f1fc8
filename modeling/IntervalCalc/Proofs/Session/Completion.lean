import Mathlib.Data.List.DropRight
import IntervalCalc.Proofs.Lexing.Places
import IntervalCalc.Session.Completion

/-!
Completion and names. The word that is completed is found by its own characters, the small letters
and the digits, which are not all that names are written with. So what is replaced is the end of
the name that is being typed, and the whole of it exactly if that name has no other characters.
-/

namespace IntervalCalc

/-- The small letters and the digits are characters of names. -/
theorem isNamePart_of_isWordChar {c : Char} (small : Completion.isWordChar c) : isNamePart c := by
  have letters : Unicode.letterRanges.ascending := by decide +kernel
  have numbers : Unicode.numberRanges.ascending := by decide +kernel
  rw [isNamePart, Bool.or_eq_true, Bool.or_eq_true]
  simp only [Completion.isWordChar, Char.isDigit, Bool.or_eq_true, Bool.and_eq_true,
    decide_eq_true_eq, Char.le_def, UInt32.le_iff_toNat_le] at small
  rcases small with letter | digit
  · have range : (0x61, 0x7A) ∈ Unicode.letterRanges := List.mem_cons_of_mem _ List.mem_cons_self
    exact .inl (.inr ((Unicode.RangeTable.contains_iff letters).mpr ⟨_, range, letter⟩))
  · have range : (0x30, 0x39) ∈ Unicode.numberRanges := List.mem_cons_self
    exact .inr ((Unicode.RangeTable.contains_iff numbers).mpr ⟨_, range, digit⟩)

/-- A beginning of a name is a name. -/
theorem isIdentifier_of_prefix {front name : List Char} (some : front ≠ [])
    (begins : front <+: name) (identifier : isIdentifier name) : isIdentifier front := by
  obtain ⟨rest, rfl⟩ := begins
  obtain ⟨c, front, rfl⟩ := List.exists_cons_of_ne_nil some
  simp only [List.cons_append, isIdentifier, List.all_append, Bool.and_eq_true] at identifier ⊢
  exact ⟨identifier.1, identifier.2.1⟩

/-- A text is split at a byte in one way. -/
theorem append_inj_of_utf8Len {front front' rest rest' : List Char}
    (same : front ++ rest = front' ++ rest') (size : String.utf8Len front = String.utf8Len front') :
    front = front' ∧ rest = rest' := by
  have split := Cursor.splitAtByte_append [] front rest
  rw [same, size, Cursor.splitAtByte_append [] front' rest', Prod.mk.injEq] at split
  simp only [List.append_nil, List.reverse_inj] at split
  exact ⟨split.1.symm, split.2.symm⟩

namespace Completion

/-- All names that may be offered. -/
def names : List String :=
  Builtin.all.map Builtin.name ++ keywords

theorem isIdentifier_of_mem_names : ∀ name ∈ names, isIdentifier name.toList := by
  decide +kernel

/-- The characters of names that a line ends in. -/
def lastName (line : List Char) : List Char :=
  line.rtakeWhile isNamePart

/-- From its start to the end of the line, a completion replaces all characters of a name, and what
it offers goes on with them. -/
def ReplacesName (line : String) (completion : Completion) : Prop :=
  ∃ front word, line.toList = front ++ word ∧ completion.start = String.utf8Len front ∧
    (∀ c ∈ front.getLast?, isNamePart c = false) ∧
    ∀ candidate ∈ completion.candidates, word <+: candidate.name.toList

/-- The names that are offered for a word are those that begin with it. -/
theorem mem_matching {word : List Char} {name : String} :
    name ∈ (matching word).map Candidate.name ↔ name ∈ names ∧ word <+: name.toList := by
  have listed : (matching word).map Candidate.name =
      names.filter fun name => word.isPrefixOf name.toList := by
    simp only [matching, names, List.map_append, List.map_map, Function.comp_def, List.map_id',
      List.filter_append]
  rw [listed, List.mem_filter, List.isPrefixOf_iff_prefix]

theorem all_isWordChar_lastWord {line : List Char} : ∀ c ∈ lastWord line, isWordChar c :=
  fun _ member => List.mem_rtakeWhile_imp member

/-- The word at the end of a line begins behind a character that is none of a word. -/
theorem lastWord_split (line : List Char) :
    ∃ front, line = front ++ lastWord line ∧ ∀ c ∈ front.getLast?, isWordChar c = false := by
  refine ⟨line.rdropWhile isWordChar, List.rdropWhile_append_rtakeWhile.symm, ?_⟩
  intro c last
  obtain ⟨some, rfl⟩ := List.mem_getLast?_eq_getLast last
  exact Bool.eq_false_iff.mpr (List.rdropWhile_last_not isWordChar line some)

/-- A word has one byte for each character. -/
theorem utf8Len_of_small {word : List Char} (small : ∀ c ∈ word, isWordChar c) :
    String.utf8Len word = word.length := by
  induction word with
  | nil => rfl
  | cons c word ih =>
      obtain ⟨first, others⟩ := List.forall_mem_cons.mp small
      have size : c.utf8Size = 1 := by
        simp only [isWordChar, Char.isDigit, Bool.or_eq_true, Bool.and_eq_true, decide_eq_true_eq,
          Char.le_def, UInt32.le_iff_toNat_le] at first
        rw [Char.utf8Size_eq_one_iff, UInt32.le_iff_toNat_le]
        change (97 ≤ c.val.toNat ∧ c.val.toNat ≤ 122) ∨
          (48 ≤ c.val.toNat ∧ c.val.toNat ≤ 57) at first
        change c.val.toNat ≤ 127
        omega
      rw [String.utf8Len_cons, ih others, size, List.length_cons]

/-- At the end of a line, the last word is replaced by what begins with it. -/
theorem atByte_of_split {line : String} {front : List Char}
    (split : line.toList = front ++ lastWord line.toList) (some : lastWord line.toList ≠ []) :
    atByte line line.utf8ByteSize = ⟨String.utf8Len front, matching (lastWord line.toList)⟩ := by
  have size : line.utf8ByteSize = String.utf8Len front + (lastWord line.toList).length := by
    rw [← utf8Len_of_small all_isWordChar_lastWord, ← String.utf8Len_append, ← split,
      ← String.utf8ByteSize_ofList, String.ofList_toList]
  have word : (lastWord line.toList).isEmpty = false := List.isEmpty_eq_false_iff.mpr some
  rw [atByte, beq_self_eq_true, word, Bool.not_false, Bool.and_self, if_pos rfl, size,
    Nat.add_sub_cancel]

theorem lastWord_ne_nil {line : String}
    (offered : (atByte line line.utf8ByteSize).candidates ≠ []) : lastWord line.toList ≠ [] := by
  intro none
  rw [atByte, none] at offered
  simp at offered

/-- The characters of names at the end of a line are those of the word at its end, and those that
come before it. -/
theorem lastName_append {front word : List Char} (part : ∀ c ∈ word, isNamePart c) :
    lastName (front ++ word) = lastName front ++ word := by
  have part' : ∀ c ∈ word.reverse, isNamePart c :=
    fun c member => part c (List.mem_reverse.mp member)
  rw [lastName, List.rtakeWhile, List.reverse_append, List.takeWhile_append_of_pos part',
    List.reverse_append, List.reverse_reverse]
  rfl

/-- What goes before the word is no part of a name exactly if the name has only characters of
words. -/
theorem forall_lastName_iff {front word : List Char}
    (small : ∀ c ∈ word, isWordChar c) (ends : ∀ c ∈ front.getLast?, isWordChar c = false) :
    (∀ c ∈ lastName (front ++ word), isWordChar c) ↔
      ∀ c ∈ front.getLast?, isNamePart c = false := by
  rw [lastName_append fun c member => isNamePart_of_isWordChar (small c member)]
  induction front using List.reverseRecOn with
  | nil => simpa [lastName] using small
  | append_singleton front d _ =>
      have last : isWordChar d = false := ends d (by simp)
      simp only [List.getLast?_concat, Option.mem_some_iff, forall_eq']
      constructor
      · intro all
        by_contra part
        have member : d ∈ lastName (front ++ [d]) := by
          rw [lastName, List.rtakeWhile_concat_pos _ _ _ (Bool.eq_true_of_not_eq_false part)]
          exact List.mem_append_right _ List.mem_cons_self
        rw [all d (List.mem_append_left _ member)] at last
        cases last
      · intro outside
        have none : lastName (front ++ [d]) = [] :=
          List.rtakeWhile_concat_neg _ _ _ (Bool.eq_false_iff.mp outside)
        rw [none]
        exact small

/-- Whenever names are offered at the end of a line, what they replace is the longest word of small
letters and digits there. It is a name by itself, and exactly the names that begin with it are
offered. It is the whole of the name that is being typed if all the characters of names that the
line ends in are small letters and digits, and otherwise a part that is cut off. -/
theorem replacesName_iff (line : String)
    (offered : (atByte line line.utf8ByteSize).candidates ≠ []) :
    (∃ front word, line.toList = front ++ word ∧
      (atByte line line.utf8ByteSize).start = String.utf8Len front ∧ isIdentifier word ∧
      (∀ c ∈ word, isWordChar c) ∧ (∀ c ∈ front.getLast?, isWordChar c = false) ∧
      ∀ name, name ∈ (atByte line line.utf8ByteSize).candidates.map Candidate.name ↔
        name ∈ names ∧ word <+: name.toList) ∧
    (ReplacesName line (atByte line line.utf8ByteSize) ↔
      ∀ c ∈ lastName line.toList, isWordChar c) := by
  have some := lastWord_ne_nil offered
  obtain ⟨front, split, ends⟩ := lastWord_split line.toList
  have small := @all_isWordChar_lastWord line.toList
  rw [atByte_of_split split some] at offered ⊢
  obtain ⟨candidate, member⟩ := List.exists_mem_of_ne_nil _ offered
  obtain ⟨known, begins⟩ := mem_matching.mp (List.mem_map_of_mem member)
  refine ⟨⟨front, _, split, rfl, ?_, small, ends, fun name => mem_matching⟩, ?_⟩
  · exact isIdentifier_of_prefix some begins (isIdentifier_of_mem_names _ known)
  · rw [split, forall_lastName_iff small ends, ← split]
    constructor
    · rintro ⟨front', word, split', start, outside, _⟩
      obtain ⟨rfl, _⟩ := append_inj_of_utf8Len (split.symm.trans split') start
      exact outside
    · intro outside
      refine ⟨front, _, split, rfl, outside, fun candidate member => ?_⟩
      exact (mem_matching.mp (List.mem_map_of_mem member)).2

/-- Behind a bracket the whole name is replaced, and the functions that begin with it are
offered. -/
theorem replacesName_iff_of_call :
    let line := "é + (si"
    (atByte line line.utf8ByteSize).candidates = [⟨"sin", "sin("⟩] ∧
      (atByte line line.utf8ByteSize).start = 6 ∧
      ReplacesName line (atByte line line.utf8ByteSize) := by
  intro line
  have candidates : (atByte line line.utf8ByteSize).candidates = [⟨"sin", "sin("⟩] := by
    decide +kernel
  have offered : (atByte line line.utf8ByteSize).candidates ≠ [] := by
    rw [candidates]
    exact List.cons_ne_nil _ _
  have parts : line.toList = ['é', ' ', '+', ' ', '('] ++ ['s', 'i'] := by decide +kernel
  refine ⟨candidates, by decide +kernel, (replacesName_iff line offered).2.mpr ?_⟩
  have small : ∀ c ∈ ['s', 'i'], isWordChar c := List.all_eq_true.mp rfl
  have last {d : Char} (member : d ∈ ['é', ' ', '+', ' ', '('].getLast?) : d = '(' :=
    (Option.some.inj member).symm
  rw [parts, forall_lastName_iff small fun c member => last member ▸ rfl]
  intro c member
  rw [last member]
  decide

/-- A name with an underscore is cut in two: for `my_si` the function `sin` is offered. -/
theorem replacesName_not_of_underscore :
    let line := "my_si"
    atByte line line.utf8ByteSize = ⟨3, [⟨"sin", "sin("⟩]⟩ ∧
      ¬ ReplacesName line (atByte line line.utf8ByteSize) := by
  intro line
  have completion : atByte line line.utf8ByteSize = ⟨3, [⟨"sin", "sin("⟩]⟩ := by decide +kernel
  have parts : line.toList = ['m', 'y', '_'] ++ ['s', 'i'] := by decide +kernel
  refine ⟨completion, ?_⟩
  rw [completion]
  rintro ⟨front, word, split, start, outside, _⟩
  obtain ⟨rfl, _⟩ := append_inj_of_utf8Len (parts.symm.trans split) start
  exact absurd (outside '_' rfl) (by decide)

end Completion

end IntervalCalc
