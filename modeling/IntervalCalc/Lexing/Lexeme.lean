import IntervalCalc.Identifier
import IntervalCalc.Numeral.Reading
import IntervalCalc.Unicode.Blank

/-! The longest name, numeral or blank stretch at the beginning of a text. -/

namespace IntervalCalc

/-- The longest name that the text begins with, empty if there is none. -/
def nameLexeme : List Char → List Char
  | [] => []
  | c :: rest => if isNameStart c then c :: rest.takeWhile isNamePart else []

theorem nameLexeme_prefix (text : List Char) : nameLexeme text <+: text := by
  unfold nameLexeme
  split
  · exact List.nil_prefix
  · split
    · exact List.cons_prefix_cons.mpr ⟨rfl, List.takeWhile_prefix isNamePart⟩
    · exact List.nil_prefix

/-- What is read as a name is one. -/
theorem isIdentifier_nameLexeme {text : List Char} (found : nameLexeme text ≠ []) :
    isIdentifier (nameLexeme text) := by
  unfold nameLexeme at found ⊢
  split at found
  · contradiction
  · split at found
    next first =>
      simp only [first, if_true, isIdentifier, Bool.true_and]
      exact List.all_takeWhile
    · contradiction

/-- A sign that a text begins with: whether it is a minus, and what follows. -/
def sign? : List Char → Option (Bool × List Char)
  | '+' :: rest => some (false, rest)
  | '-' :: rest => some (true, rest)
  | _ => none

/-- The length of the white space and comments that a text begins with. A comment runs from `#`
to the end of the line; `inComment` tells whether the text begins inside one. -/
def blankLength : (inComment : Bool) → List Char → Nat
  | _, [] => 0
  | true, c :: rest => blankLength (c != '\n') rest + 1
  | false, c :: rest =>
    if Unicode.isBlank c then blankLength false rest + 1
    else if c == '#' then blankLength true rest + 1
    else 0

theorem blankLength_le (inComment : Bool) (text : List Char) :
    blankLength inComment text ≤ text.length := by
  fun_induction blankLength inComment text with
  | case1 => exact Nat.le_refl 0
  | case2 c rest ih => exact Nat.succ_le_succ ih
  | case3 c rest blank ih => exact Nat.succ_le_succ ih
  | case4 c rest solid comment ih => exact Nat.succ_le_succ ih
  | case5 => exact Nat.zero_le _

end IntervalCalc
