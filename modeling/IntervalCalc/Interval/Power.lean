import IntervalCalc.Interval.Basic

/-! Powers of intervals. -/

namespace IntervalCalc.Interval

variable {α : Type} [Scalar α]

/-- The power to a positive exponent. An even power folds the negative numbers over, an odd one
keeps the order, and a power that is no whole number asks for a base without negative numbers. -/
def positivePow (x : Interval α) (power : α) : Except (IntervalError α) (Interval α) :=
  if 0 < x.inf then
    .ok (between (Scalar.pow x.inf power) (Scalar.pow x.sup power))
  else if x.sup < 0 then
    if Scalar.isIntegral power then
      .ok (between (Scalar.pow x.sup power) (Scalar.pow x.inf power))
    else .error (.nonRealPower x power)
  else if Scalar.isEven power then
    .ok (between 0 (Scalar.pow x.magnitude power))
  else if Scalar.isIntegral power then
    .ok (between (Scalar.pow x.inf power) (Scalar.pow x.sup power))
  else if x.inf == 0 then
    .ok (between 0 (Scalar.pow x.sup power))
  else .error (.nonRealPower x power)

/-- The power to any exponent. A negative one gives the reciprocal of the opposite power, and
zero always gives one. -/
def pow (x : Interval α) (power : α) : Except (IntervalError α) (Interval α) :=
  if power == 0 then .ok one
  else if power < 0 then do (← x.positivePow (-power)).recip
  else x.positivePow power

end IntervalCalc.Interval
