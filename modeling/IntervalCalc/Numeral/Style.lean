import IntervalCalc.Numeral.Shortest

/-!
The written forms of numbers. The digits are the shortest that read back; a style decides how
they are laid out.
-/

namespace IntervalCalc

/-- How the digits of a number are laid out. -/
structure NumeralStyle where
  /-- The exponents of the leading digit for which no power of ten is written. -/
  positional : Int → Bool
  /-- Whether a whole number without a power of ten ends in `.0`. -/
  wholePoint : Bool
  /-- Whether a single digit before a power of ten is followed by `.0`. -/
  scientificPoint : Bool
  /-- How the last digit is chosen between two equally near candidates. -/
  tie : Tie
  infinity : String

namespace NumeralStyle

def decimalDigits (n : Nat) : List Char :=
  Nat.toDigits 10 n

/-- The digits with the decimal point put behind the leading `count` of them, zeros filling the
places that have no digit. -/
def pointAfter (style : NumeralStyle) (count : Int) (digits : List Char) : List Char :=
  if count ≤ 0 then
    '0' :: '.' :: List.replicate (-count).toNat '0' ++ digits
  else if digits.length ≤ count.toNat then
    digits ++ List.replicate (count.toNat - digits.length) '0' ++
      (if style.wholePoint then ['.', '0'] else [])
  else digits.take count.toNat ++ '.' :: digits.drop count.toNat

/-- The digits with the point behind the first one, and a power of ten. -/
def withPower (style : NumeralStyle) (power : Int) (digits : List Char) : List Char :=
  let fraction := match digits.tail with
    | [] => if style.scientificPoint then ['.', '0'] else []
    | rest => '.' :: rest
  let sign := if power < 0 then ['-'] else []
  digits.take 1 ++ fraction ++ 'e' :: sign ++ decimalDigits power.natAbs

def layout (style : NumeralStyle) (d : Decimal) : List Char :=
  let digits := decimalDigits d.digits
  let leading := d.exponent + digits.length - 1
  if style.positional leading then style.pointAfter (leading + 1) digits
  else style.withPower leading digits

/-- The text of a number. Zero keeps its sign, and the undefined number has none. -/
def write (style : NumeralStyle) (x : Float) : List Char :=
  let signed (negative : Bool) (magnitude : List Char) :=
    if negative then '-' :: magnitude else magnitude
  match Binary64.ofFloat x with
  | .undefined => ['N', 'a', 'N']
  | .infinite negative => signed negative style.infinity.toList
  | .finite negative significand exponent =>
    signed negative (style.layout (Decimal.shortest style.tie significand exponent))

/-- Numbers are shown without a power of ten, whatever their size. -/
def plain : NumeralStyle where
  positional _ := true
  wholePoint := false
  scientificPoint := false
  tie := .upward
  infinity := "inf"

/-- The number of a literal in the dump of a tree always has a point, and a power of ten from
`1.0e16` up and below `0.00001`. -/
def literal : NumeralStyle where
  positional exponent := -5 ≤ exponent && exponent ≤ 15
  wholePoint := true
  scientificPoint := true
  tie := .toEven
  infinity := "Infinity"

/-- The bounds of an interval in the dump of a tree have a point or a power of ten, the latter
from `1e16` up and below `0.0001`. -/
def bound : NumeralStyle where
  positional exponent := -4 ≤ exponent && exponent ≤ 15
  wholePoint := true
  scientificPoint := false
  tie := .upward
  infinity := "inf"

example : plain.layout ⟨1, 20⟩ = "100000000000000000000".toList := by decide +kernel

example : literal.layout ⟨1, 16⟩ = "1.0e16".toList := by decide +kernel

example : bound.layout ⟨1, -5⟩ = "1e-5".toList := by decide +kernel

end NumeralStyle

end IntervalCalc
