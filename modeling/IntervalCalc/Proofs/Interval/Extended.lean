import IntervalCalc.Interval.Trig
import IntervalCalc.Proofs.Interval.Exact

/-!
Exact numbers with infinities. The entire line has infinite bounds, which no number of a field is.
Joined to the exact numbers are the two infinities and a result for the operations that have none.
An interval with finite bounds is an interval of exact numbers, and its bounds are compared and
computed with as they are there.
-/

namespace IntervalCalc

/-- An exact number, an infinity, or the result of an operation that has no other. -/
inductive Extended (K : Type) where
  | finite (x : Exact K)
  | infinite (negative : Bool)
  | undefined

namespace Extended

variable {K : Type}

section Operations

variable [Field K] [LinearOrder K] [FloorRing K] [Functions K]

def isNegative (x : Exact K) : Bool :=
  x < 0

def neg : Extended K → Extended K
  | finite x => finite (-x)
  | infinite negative => infinite !negative
  | undefined => undefined

def add : Extended K → Extended K → Extended K
  | finite x, finite y => finite (x + y)
  | infinite negative, finite _ | finite _, infinite negative => infinite negative
  | infinite negative, infinite negative' =>
      if negative = negative' then infinite negative else undefined
  | _, _ => undefined

def sub : Extended K → Extended K → Extended K
  | finite x, finite y => finite (x - y)
  | x, y => add x (neg y)

def mul : Extended K → Extended K → Extended K
  | finite x, finite y => finite (x * y)
  | infinite negative, finite x | finite x, infinite negative =>
      if x == 0 then undefined else infinite (negative ^^ isNegative x)
  | infinite negative, infinite negative' => infinite (negative ^^ negative')
  | _, _ => undefined

/-- Numbers of the field are divided as the field has it, also by zero. -/
def div : Extended K → Extended K → Extended K
  | finite x, finite y => finite (x / y)
  | infinite negative, finite y => infinite (negative ^^ isNegative y)
  | finite _, infinite _ => finite 0
  | _, _ => undefined

def beq : Extended K → Extended K → Bool
  | finite x, finite y => x == y
  | infinite negative, infinite negative' => negative == negative'
  | _, _ => false

/-- The one infinity is below and the other above all numbers. What is undefined has no place. -/
def le : Extended K → Extended K → Bool
  | finite x, finite y => x ≤ y
  | infinite negative, finite _ => negative
  | finite _, infinite negative => !negative
  | infinite negative, infinite negative' => negative || !negative'
  | _, _ => false

def lt : Extended K → Extended K → Bool
  | finite x, finite y => x < y
  | infinite negative, finite _ => negative
  | finite _, infinite negative => !negative
  | infinite negative, infinite negative' => negative && !negative'
  | _, _ => false

def abs : Extended K → Extended K
  | finite x => finite (Scalar.abs x)
  | infinite _ => infinite false
  | undefined => undefined

def rem : Extended K → Extended K → Extended K
  | finite x, finite y => finite (Scalar.rem x y)
  | finite x, infinite _ => finite x
  | _, _ => undefined

/-- A function that has no limit at the infinities. -/
def onFinite (f : Exact K → Exact K) : Extended K → Extended K
  | finite x => finite (f x)
  | _ => undefined

def exp : Extended K → Extended K
  | finite x => finite (Scalar.exp x)
  | infinite negative => if negative then finite 0 else infinite false
  | undefined => undefined

/-- A logarithm, which grows beyond all numbers. -/
def logarithm (f : Exact K → Exact K) : Extended K → Extended K
  | finite x => finite (f x)
  | infinite negative => if negative then undefined else infinite false
  | undefined => undefined

/-- A power of two finite numbers. No other power is taken. -/
def pow : Extended K → Extended K → Extended K
  | finite x, finite y => finite (Scalar.pow x y)
  | _, _ => undefined

instance : Scalar (Extended K) where
  zero := finite 0
  one := finite 1
  natCast n := finite n
  add := add
  sub := sub
  mul := mul
  div := div
  neg := neg
  beq := beq
  le x y := le x y = true
  lt x y := lt x y = true
  decLe x y := inferInstanceAs (Decidable (le x y = true))
  decLt x y := inferInstanceAs (Decidable (lt x y = true))
  abs := abs
  rem := rem
  pow := pow
  exp := exp
  log := logarithm Scalar.log
  log10 := logarithm Scalar.log10
  sin := onFinite Scalar.sin
  tan := onFinite Scalar.tan
  asin := onFinite Scalar.asin
  pi := finite Scalar.pi
  infinity := infinite false
  isIntegral
    | finite x => Scalar.isIntegral x
    | _ => false
  floorNat
    | finite x => Scalar.floorNat x
    | _ => 0
  fingerprint
    | finite x => Scalar.fingerprint x
    | _ => 0

end Operations

variable [Field K] [LinearOrder K] [FloorRing K] [Functions K] (x y : Exact K)

@[simp] theorem finite_le_iff : finite x ≤ finite y ↔ x ≤ y :=
  decide_eq_true_iff

@[simp] theorem finite_lt_iff : finite x < finite y ↔ x < y :=
  decide_eq_true_iff

@[simp] theorem finite_add : finite x + finite y = finite (x + y) := rfl

theorem pi_eq : (Scalar.pi : Extended K) = finite Scalar.pi := rfl
theorem halfPi_eq : (Scalar.halfPi : Extended K) = finite Scalar.halfPi := rfl
theorem tau_eq : (Scalar.tau : Extended K) = finite Scalar.tau := rfl

theorem modulo_finite : Scalar.modulo (finite x) (finite y) = finite (Scalar.modulo x y) := by
  have rem : Scalar.rem (finite x) (finite y) = finite (Scalar.rem x y) := rfl
  have zero : (0 : Extended K) = finite 0 := rfl
  unfold Scalar.modulo
  rw [rem, zero]
  simp only [finite_lt_iff, finite_add, apply_ite finite]

theorem ofAngle_finite : Quadrant.ofAngle (finite x) = Quadrant.ofAngle x := by
  unfold Quadrant.ofAngle
  simp only [halfPi_eq, pi_eq, finite_add, finite_le_iff]

end Extended

variable {K : Type}

/-- The same interval among numbers with infinities. -/
def Interval.extended (X : Interval (Exact K)) : Interval (Extended K) :=
  ⟨.finite X.inf, .finite X.sup⟩

def Arc.extended (arc : Arc (Exact K)) : Arc (Extended K) :=
  ⟨.finite arc.start, .finite arc.finish, arc.startQuadrant, arc.finishQuadrant⟩

namespace Interval

variable [Field K] [LinearOrder K] [FloorRing K] [Functions K] (X : Interval (Exact K))

open Extended (finite)

theorem between_finite (a b : Exact K) :
    between (finite a) (finite b) = (between a b).extended := by
  unfold between
  simp only [Extended.finite_le_iff, apply_ite extended]
  rfl

theorem extended_neg : -X.extended = (-X).extended :=
  between_finite (-X.sup) (-X.inf)

theorem extended_add_point (distance : Exact K) :
    X.extended + point (finite distance) = (X + point distance).extended :=
  between_finite (X.inf + distance) (X.sup + distance)

theorem neg_entire : -(entire : Interval (Extended K)) = entire := rfl

/-- No interval with finite bounds is the entire line. -/
theorem extended_ne_entire : X.extended ≠ entire := by
  intro same
  cases congrArg Interval.inf same

theorem arc?_extended : X.extended.arc? = X.arc?.map Arc.extended := by
  have width : X.extended.width = finite X.width := rfl
  have inf : X.extended.inf = finite X.inf := rfl
  have sup : X.extended.sup = finite X.sup := rfl
  unfold arc?
  simp only [width, inf, sup, Extended.tau_eq, Extended.modulo_finite, Extended.ofAngle_finite,
    Extended.finite_le_iff, Extended.finite_lt_iff]
  split
  · rfl
  · split <;> rfl

end Interval

end IntervalCalc
