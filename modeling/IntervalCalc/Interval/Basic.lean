import IntervalCalc.Scalar

/-!
Closed intervals and their arithmetic. Bounds are computed with the operations of the number
type, without widening the result.
-/

namespace IntervalCalc

/-- The numbers from `inf` to `sup`. -/
structure Interval (α : Type) where
  inf : α
  sup : α
deriving DecidableEq

inductive IntervalError (α : Type) where
  | containsZero (divisor : Interval α)
  | outsideDomain (function : String) (argument : Interval α)
  | nonRealPower (base : Interval α) (power : α)

namespace Interval

variable {α : Type} [Scalar α]

/-- The interval with two given ends, in either order. -/
def between (a b : α) : Interval α :=
  if a ≤ b then ⟨a, b⟩ else ⟨b, a⟩

def point (x : α) : Interval α :=
  ⟨x, x⟩

def entire : Interval α :=
  ⟨-Scalar.infinity, Scalar.infinity⟩

/-- The range of sine and cosine. -/
def signRange : Interval α :=
  ⟨-1, 1⟩

def one : Interval α :=
  ⟨1, 1⟩

/-- Replaces the lower bound. A number above the upper bound becomes the upper bound, and the old
upper bound the lower one. -/
def withInf (x : Interval α) (bound : α) : Interval α :=
  if bound ≤ x.sup then ⟨bound, x.sup⟩ else ⟨x.sup, bound⟩

/-- Replaces the upper bound. A number below the lower bound becomes the lower bound, and the old
lower bound the upper one. -/
def withSup (x : Interval α) (bound : α) : Interval α :=
  if x.inf ≤ bound then ⟨x.inf, bound⟩ else ⟨bound, x.inf⟩

def isPoint (x : Interval α) : Bool :=
  x.inf == x.sup

def contains (x : Interval α) (number : α) : Bool :=
  x.inf ≤ number && number ≤ x.sup

/-- Whether two intervals have equal numbers as bounds. -/
def sameBounds (x y : Interval α) : Bool :=
  x.inf == y.inf && x.sup == y.sup

def width (x : Interval α) : α :=
  x.sup - x.inf

def midpoint (x : Interval α) : α :=
  (x.inf + x.sup) / Scalar.two

/-- The greatest absolute value of the numbers in the interval. -/
def magnitude (x : Interval α) : α :=
  Scalar.max (Scalar.abs x.inf) (Scalar.abs x.sup)

/-- The lesser absolute value of the two bounds. -/
def mignitude (x : Interval α) : α :=
  Scalar.min (Scalar.abs x.inf) (Scalar.abs x.sup)

/-- The least interval that holds two intervals. -/
def hull (x y : Interval α) : Interval α :=
  between (Scalar.min x.inf y.inf) (Scalar.max x.sup y.sup)

def hullWith (x : Interval α) (number : α) : Interval α :=
  between (Scalar.min x.inf number) (Scalar.max x.sup number)

def shift (x : Interval α) (distance : α) : Interval α :=
  between (x.inf + distance) (x.sup + distance)

def neg (x : Interval α) : Interval α :=
  between (-x.sup) (-x.inf)

def add (x y : Interval α) : Interval α :=
  between (x.inf + y.inf) (x.sup + y.sup)

def sub (x y : Interval α) : Interval α :=
  between (x.inf - y.sup) (x.sup - y.inf)

def ascending (a b : α) : α × α :=
  if b < a then (b, a) else (a, b)

/-- The extremes of the four products of bounds. The products are compared in pairs, and then
the lesser ones and the greater ones with each other. -/
def mul (x y : Interval α) : Interval α :=
  let (low, high) := ascending (x.inf * y.inf) (x.inf * y.sup)
  let (low', high') := ascending (x.sup * y.inf) (x.sup * y.sup)
  between (if low' < low then low' else low) (if high' < high then high else high')

instance : Neg (Interval α) := ⟨neg⟩
instance : Add (Interval α) := ⟨add⟩
instance : Sub (Interval α) := ⟨sub⟩
instance : Mul (Interval α) := ⟨mul⟩

/-- The reciprocals of the numbers in the interval, none of which may be zero. -/
def recip (x : Interval α) : Except (IntervalError α) (Interval α) :=
  if 0 < x.inf ∨ x.sup < 0 then .ok (between (1 / x.sup) (1 / x.inf))
  else .error (.containsZero x)

def div (x divisor : Interval α) : Except (IntervalError α) (Interval α) := do
  return x * (← divisor.recip)

end Interval

end IntervalCalc
