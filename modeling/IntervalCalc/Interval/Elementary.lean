import IntervalCalc.Interval.Basic

/-! Monotone functions of intervals, with their domains. -/

namespace IntervalCalc.Interval

variable {α : Type} [Scalar α]

/-- The image of the interval under a function applied to the two bounds. -/
def mapBounds (f : α → α) (x : Interval α) : Interval α :=
  between (f x.inf) (f x.sup)

def log (x : Interval α) : Except (IntervalError α) (Interval α) :=
  if x.inf ≤ 0 then .error (.outsideDomain "log" x) else .ok (x.mapBounds Scalar.log)

def log10 (x : Interval α) : Except (IntervalError α) (Interval α) :=
  if x.inf ≤ 0 then .error (.outsideDomain "log10" x) else .ok (x.mapBounds Scalar.log10)

def exp (x : Interval α) : Interval α :=
  x.mapBounds Scalar.exp

def asin (x : Interval α) : Except (IntervalError α) (Interval α) :=
  if x.inf < -1 ∨ 1 < x.sup then .error (.outsideDomain "asin" x)
  else .ok (x.mapBounds Scalar.asin)

end IntervalCalc.Interval
