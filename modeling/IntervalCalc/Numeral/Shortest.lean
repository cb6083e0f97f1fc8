import IntervalCalc.Numeral.Binary64

/-!
The shortest decimal that reads back to a binary64 number.

The real numbers that round to a finite number form an interval around it, from half way to the
number below to half way to the number above. The search goes through the decimal grids from the
coarsest on and looks at the two neighbours of the number on each, in exact arithmetic; the first
grid with a neighbour inside the interval gives the digits.
-/

namespace IntervalCalc

/-- The number `digits * 10 ^ exponent`. -/
structure Decimal where
  digits : Nat
  exponent : Int
deriving DecidableEq

/-- Which of two equally near candidates is taken. -/
inductive Tie where
  | toEven
  | upward
deriving DecidableEq

namespace Decimal

/-- The order of `a * 10 ^ i` and `n * 2 ^ j`. -/
def compareScaled (a : Nat) (i : Int) (n : Nat) (j : Int) : Ordering :=
  compare ((a * Nat.pow 10 i.toNat) <<< (-j).toNat) (n <<< j.toNat * Nat.pow 10 (-i).toNat)

/-- Whether a decimal lies among the reals that round to `significand * 2 ^ exponent`. The two
ends belong to them when the significand is even. Below a power of two the neighbour is only
half as far away, unless the numbers below it have the least exponent. -/
def readsBack (significand : Nat) (exponent : Int) (d : Decimal) : Bool :=
  let narrow := significand == 1 <<< 52 && -1074 < exponent
  let least := if narrow then 4 * significand - 1 else 4 * significand - 2
  let greatest := 4 * significand + 2
  let closed := significand % 2 == 0
  let below := compareScaled d.digits d.exponent least (exponent - 2)
  let above := compareScaled d.digits d.exponent greatest (exponent - 2)
  (below == .gt || closed && below == .eq) && (above == .lt || closed && above == .eq)

/-- The least `k` with `significand * 2 ^ exponent < 10 ^ k`, for a positive significand. The
binary logarithm leaves two candidates. -/
def scale (significand : Nat) (exponent : Int) : Int :=
  let k := (30103 * (significand.log2 + exponent)).fdiv 100000 + 1
  if compareScaled 1 k significand exponent == .gt then k else k + 1

/-- Moves trailing zeros of the digits into the exponent, at most `count` of them. -/
def strip : Nat → Decimal → Decimal
  | 0, d => d
  | count + 1, d =>
    if d.digits % 10 == 0 then strip count ⟨d.digits / 10, d.exponent + 1⟩ else d

/-- The decimal on the grid `10 ^ place` that reads back to `significand * 2 ^ exponent`, if one
of the two neighbours does, and the nearer one if both do. -/
def onGrid (tie : Tie) (significand : Nat) (exponent : Int) (place : Int) : Option Decimal :=
  let dividend := significand <<< exponent.toNat * Nat.pow 10 (-place).toNat
  let divisor := Nat.pow 10 place.toNat <<< (-exponent).toNat
  let low := dividend / divisor
  let lower : Decimal := ⟨low, place⟩
  let upper : Decimal := ⟨low + 1, place⟩
  match readsBack significand exponent lower, readsBack significand exponent upper with
  | false, false => none
  | true, false => some lower
  | false, true => some upper
  | true, true =>
    match compare (2 * dividend) ((2 * low + 1) * divisor), tie with
    | .lt, _ => some lower
    | .gt, _ => some upper
    | .eq, .upward => some upper
    | .eq, .toEven => some (if low % 2 == 0 then lower else upper)

def exactly (significand : Nat) (exponent : Int) : Decimal :=
  if 0 ≤ exponent then ⟨significand <<< exponent.toNat, 0⟩
  else ⟨significand * Nat.pow 5 (-exponent).toNat, exponent⟩

/-- The decimal with the fewest digits that reads back to `significand * 2 ^ exponent`. Zero has
the digit zero. Seventeen digits suffice for every binary64 number. -/
def shortest (tie : Tie) (significand : Nat) (exponent : Int) : Decimal :=
  if significand == 0 then ⟨0, 0⟩
  else
    let k := scale significand exponent
    match (List.range 17).findSome? fun (n : Nat) =>
        onGrid tie significand exponent (k - (n + 1)) with
    | some d => strip 17 d
    | none => exactly significand exponent

end Decimal

end IntervalCalc
