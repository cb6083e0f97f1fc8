/-!
The numbers that bounds are made of. The library computes over any type with these operations;
binary64 numbers are one, and an exactly computing type can be another.
-/

namespace IntervalCalc

/-- A number type. `==` is the equality of the numbers, under which an undefined number may
differ from itself. -/
class Scalar (α : Type) extends Zero α, One α, NatCast α, Add α, Sub α, Mul α, Div α, Neg α,
    BEq α, LE α, LT α where
  decLe : (x y : α) → Decidable (x ≤ y)
  decLt : (x y : α) → Decidable (x < y)
  abs : α → α
  /-- The remainder of the division cut toward zero, with the sign of the dividend. -/
  rem : α → α → α
  pow : α → α → α
  exp : α → α
  log : α → α
  log10 : α → α
  sin : α → α
  tan : α → α
  asin : α → α
  pi : α
  infinity : α
  /-- Whether a number has no fractional part. -/
  isIntegral : α → Bool
  /-- The greatest natural number that is not above the number, and 0 where there is none. -/
  floorNat : α → Nat
  /-- A hash of the number, below `2 ^ 32`. -/
  fingerprint : α → Nat

namespace Scalar

variable {α : Type} [Scalar α]

instance (x y : α) : Decidable (x ≤ y) := decLe x y

instance (x y : α) : Decidable (x < y) := decLt x y

/-- The lesser of two numbers, and the defined one if the other is undefined. -/
def min (x y : α) : α :=
  if y < x then y else if x == x then x else y

/-- The greater of two numbers, and the defined one if the other is undefined. -/
def max (x y : α) : α :=
  if x < y then y else if x == x then x else y

def two : α := NatCast.natCast 2

def halfPi : α := pi / two

def tau : α := two * pi

def isEven (x : α) : Bool :=
  isIntegral x && isIntegral (x / two)

/-- The remainder of the division by a positive number, moved up by one period if negative. -/
def modulo (x period : α) : α :=
  let r := rem x period
  if r < 0 then r + period else r

/-- One for true and zero for false. -/
def ofBool (b : Bool) : α :=
  if b then 1 else 0

end Scalar

/-- How numbers of a type are read and written. -/
class Numeral (α : Type) where
  /-- The number nearest to `digits / 10 ^ places`. -/
  ofDecimal : (digits places : Nat) → α
  text : α → String
  /-- The text of a number node in the dump of a tree. -/
  literalText : α → String
  /-- The text of an interval's bound in the dump of a tree. -/
  boundText : α → String

end IntervalCalc
