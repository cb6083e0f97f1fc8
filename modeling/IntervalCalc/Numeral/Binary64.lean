/-!
Binary64 numbers taken apart into whole numbers, so that what they are exactly can be computed
without rounding.
-/

namespace IntervalCalc

/-- What a binary64 number stands for. A finite number is `significand * 2 ^ exponent`, with a
sign that zero has too. -/
inductive Binary64 where
  | undefined
  | infinite (negative : Bool)
  | finite (negative : Bool) (significand : Nat) (exponent : Int)
deriving DecidableEq

namespace Binary64

/-- The fields of the sixty-four bits, the hidden bit of a normal significand made plain. -/
def ofBits (bits : UInt64) : Binary64 :=
  let negative := bits >>> 63 == 1
  let scale := ((bits >>> 52) &&& 0x7FF).toNat
  let fraction := (bits &&& 0xFFFFFFFFFFFFF).toNat
  if scale == 0x7FF then
    if fraction == 0 then infinite negative else undefined
  else if scale == 0 then finite negative fraction (-1074)
  else finite negative (1 <<< 52 + fraction) (scale - 1075)

def ofFloat (x : Float) : Binary64 :=
  ofBits x.toBits

/-- The bits of `significand * 2 ^ exponent`, for a significand below `2 ^ 53` and an exponent
from -1074 to 971. Such a number is exactly representable: shifting the significand up to its
place, or as far as the least exponent allows, gives the fields. -/
def magnitudeBits (significand : Nat) (exponent : Int) : UInt64 :=
  let shift := min (52 - significand.log2) (exponent + 1074).toNat
  let placed := significand <<< shift
  if placed < 1 <<< 52 then placed.toUInt64
  else ((exponent - shift + 1074).toNat <<< 52 + placed).toUInt64

/-- The number with the given sign and magnitude `significand * 2 ^ exponent`, within the limits
of `magnitudeBits`. -/
def compose (negative : Bool) (significand : Nat) (exponent : Int) : Float :=
  let magnitude := Float.ofBits (magnitudeBits significand exponent)
  if negative then -magnitude else magnitude

/-- Whether the number has no fractional part. The infinities do not count as whole. -/
def isIntegral : Binary64 → Bool
  | undefined => false
  | infinite _ => false
  | finite _ significand exponent => significand % 1 <<< (-exponent).toNat == 0

/-- The greatest natural number that is not above the number, and 0 where there is none. -/
def floorNat : Binary64 → Nat
  | finite false significand exponent =>
    (significand <<< exponent.toNat) >>> (-exponent).toNat
  | _ => 0

/-- The remainder of the division cut toward zero. It is exact: both operands are multiples of
the lesser power of two, and the remainder of the two multiples is below the divisor and not
above the dividend. It keeps the sign of the dividend, also when it is zero. -/
def remainder (x y : Float) : Float :=
  match ofFloat x, ofFloat y with
  | finite _ _ _, infinite _ => x
  | finite negative m e, finite _ n f =>
    if n == 0 then 0 / 0
    else
      let least := min e f
      compose negative ((m <<< (e - least).toNat) % (n <<< (f - least).toNat)) least
  | _, _ => 0 / 0

end Binary64

end IntervalCalc
