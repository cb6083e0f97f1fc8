import IntervalCalc.Interval.Elementary

/-!
The periodic functions. An interval shorter than a period is an arc; the quadrants of its two
ends tell which extrema and poles it passes.
-/

namespace IntervalCalc

/-- A quarter of the circle. -/
inductive Quadrant where
  | first
  | second
  | third
  | fourth
deriving DecidableEq

/-- An interval on the circle, both ends reduced to one period. -/
structure Arc (α : Type) where
  start : α
  finish : α
  startQuadrant : Quadrant
  finishQuadrant : Quadrant

variable {α : Type} [Scalar α]

/-- The quadrant of an angle from zero to a full turn. The right end belongs to a quadrant. -/
def Quadrant.ofAngle (angle : α) : Quadrant :=
  if angle ≤ Scalar.halfPi then first
  else if angle ≤ Scalar.pi then second
  else if angle ≤ Scalar.pi + Scalar.halfPi then third
  else fourth

namespace Interval

/-- The arc that an interval covers, unless it goes all the way round. Ends of one quadrant in
reverse order have gone round too. -/
def arc? (x : Interval α) : Option (Arc α) :=
  if Scalar.tau ≤ x.width then none
  else
    let start := Scalar.modulo x.inf Scalar.tau
    let finish := Scalar.modulo x.sup Scalar.tau
    let startQuadrant := Quadrant.ofAngle start
    let finishQuadrant := Quadrant.ofAngle finish
    if startQuadrant = finishQuadrant ∧ finish < start then none
    else some { start, finish, startQuadrant, finishQuadrant }

/-- The sine falls in the second and third quadrant and rises in the others. An arc that passes
from falling to rising takes the value -1 on the way, and one that passes from rising to falling
the value 1. -/
def sin (x : Interval α) : Interval α :=
  match x.arc? with
  | none => signRange
  | some arc =>
    let s := Scalar.sin arc.start
    let t := Scalar.sin arc.finish
    match arc.startQuadrant, arc.finishQuadrant with
    | .first, .first | .fourth, .first | .fourth, .fourth => between s t
    | .second, .second | .third, .third | .second, .third => between t s
    | .second, .first | .third, .fourth => between (-1) (Scalar.max s t)
    | .third, .first => between (-1) t
    | .second, .fourth => between (-1) s
    | .first, .second | .fourth, .third => between (Scalar.min s t) 1
    | .fourth, .second => between s 1
    | .first, .third => between t 1
    | .first, .fourth | .third, .second => signRange

/-- The cosine is the sine a quarter turn on. -/
def cos (x : Interval α) : Interval α :=
  sin (x + point Scalar.halfPi)

/-- The tangent rises from pole to pole. The arcs without a pole inside lie in one quadrant, or
pass from the second to the third or from the fourth to the first. -/
def tan (x : Interval α) : Interval α :=
  match x.arc? with
  | none => entire
  | some arc =>
    match arc.startQuadrant, arc.finishQuadrant with
    | .first, .first | .second, .second | .third, .third | .fourth, .fourth
    | .second, .third | .fourth, .first => between (Scalar.tan arc.start) (Scalar.tan arc.finish)
    | _, _ => entire

/-- The cotangent is the negative of the tangent a quarter turn on. -/
def cot (x : Interval α) : Interval α :=
  -tan (x + point Scalar.halfPi)

end Interval

end IntervalCalc
