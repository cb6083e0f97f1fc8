import IntervalCalc.Scalar
import IntervalCalc.Numeral.Style
import IntervalCalc.SipHash

/-! Binary64 numbers as scalars. -/

namespace IntervalCalc

/-- The bytes that identify a number: those of its bits, and one sequence for every undefined
number. -/
def fingerprintBytes (x : Float) : List UInt8 :=
  if x.isNaN then [0x4E, 0x61, 0x4E, 0xFF] else SipHash.bytes x.toBits

instance : Scalar Float where
  zero := 0
  one := 1
  natCast n := Float.ofNat n
  add x y := x + y
  sub x y := x - y
  mul x y := x * y
  div x y := x / y
  neg x := -x
  beq x y := x == y
  le x y := x ≤ y
  lt x y := x < y
  decLe x y := inferInstanceAs (Decidable (x ≤ y))
  decLt x y := inferInstanceAs (Decidable (x < y))
  abs := Float.abs
  rem := Binary64.remainder
  pow := Float.pow
  exp := Float.exp
  log := Float.log
  log10 := Float.log10
  sin := Float.sin
  tan := Float.tan
  asin := Float.asin
  pi := 3.14159265358979323846
  infinity := 1 / 0
  isIntegral x := (Binary64.ofFloat x).isIntegral
  floorNat x := (Binary64.ofFloat x).floorNat
  fingerprint x := (SipHash.hash (fingerprintBytes x)).toUInt32.toNat

instance : Numeral Float where
  ofDecimal digits places := Float.ofScientific digits true places
  text x := String.ofList (NumeralStyle.plain.write x)
  literalText x := String.ofList (NumeralStyle.literal.write x)
  boundText x := String.ofList (NumeralStyle.bound.write x)

end IntervalCalc
