import IntervalCalc.Scalar

/-! Decimal numerals and what they denote. -/

namespace IntervalCalc

def natOfDigits (digits : List Char) : Nat :=
  digits.foldl (fun n c => 10 * n + (c.toNat - '0'.toNat)) 0

/-- A decimal numeral without a sign. Without a fraction it has no point. -/
structure DecimalNumeral where
  whole : List Char
  fraction : List Char
deriving DecidableEq

namespace DecimalNumeral

/-- The longest numeral that the text begins with. A point belongs to it only if a digit
follows. -/
def read? (text : List Char) : Option DecimalNumeral :=
  match text.takeWhile Char.isDigit, text.dropWhile Char.isDigit with
  | [], _ => none
  | whole, '.' :: rest => some ⟨whole, rest.takeWhile Char.isDigit⟩
  | whole, _ => some ⟨whole, []⟩

def lexeme (numeral : DecimalNumeral) : List Char :=
  match numeral.fraction with
  | [] => numeral.whole
  | fraction => numeral.whole ++ '.' :: fraction

/-- A numeral is read off the front of the text. -/
theorem lexeme_prefix {text : List Char} {numeral : DecimalNumeral}
    (found : read? text = some numeral) : numeral.lexeme <+: text := by
  unfold read? at found
  split at found
  · contradiction
  next rest fraction _ =>
    cases found
    have parts := List.takeWhile_append_dropWhile (p := Char.isDigit) (l := text)
    rw [fraction] at parts
    unfold lexeme
    split
    · exact List.takeWhile_prefix Char.isDigit
    next digits _ =>
      have digits_prefix : '.' :: rest.takeWhile Char.isDigit <+: '.' :: rest :=
        List.cons_prefix_cons.mpr ⟨rfl, List.takeWhile_prefix Char.isDigit⟩
      have whole_prefix := (List.prefix_append_right_inj (text.takeWhile Char.isDigit)).mpr
        digits_prefix
      rw [parts] at whole_prefix
      exact whole_prefix
  next =>
    cases found
    exact List.takeWhile_prefix Char.isDigit

/-- A numeral has a digit before the point. -/
theorem whole_ne_nil {text : List Char} {numeral : DecimalNumeral}
    (found : read? text = some numeral) : numeral.whole ≠ [] := by
  unfold read? at found
  split at found
  · contradiction
  next nonempty =>
    cases found
    exact nonempty
  next nonempty _ =>
    cases found
    exact nonempty

def value {α : Type} [Numeral α] (numeral : DecimalNumeral) : α :=
  Numeral.ofDecimal (natOfDigits (numeral.whole ++ numeral.fraction)) numeral.fraction.length

end DecimalNumeral

/-- The number that a whole text denotes: a numeral or the word for infinity, with a minus or
without, or the word for the undefined number. -/
def Scalar.ofText? {α : Type} [Scalar α] [Numeral α] (text : String) : Option α :=
  let magnitude (text : List Char) : Option α :=
    if text == ['i', 'n', 'f'] then some infinity
    else do
      let numeral ← DecimalNumeral.read? text
      if numeral.lexeme == text then some numeral.value else none
  match text.toList with
  | ['N', 'a', 'N'] => some (infinity - infinity)
  | '-' :: rest => (magnitude rest).map (- ·)
  | rest => magnitude rest

end IntervalCalc
