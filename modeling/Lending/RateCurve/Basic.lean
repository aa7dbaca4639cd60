/-
  Lending.RateCurve.Basic — the borrow rate as a function of utilization.

  A curve is a list of control points, straight between neighbours and flat outside. Accounts
  store the points in basis points, in a list of fixed size: what follows the point at full
  utilization is padding and is dropped.
-/
import Lending.Decimal.Arithmetic
import Lending.Units

namespace Lending

/-- A control point as accounts store it. -/
structure ControlPoint where
  utilizationBps : Int
  borrowRateBps : Int
  deriving DecidableEq, Repr

structure RatePoint where
  utilization : Decimal
  rate : Decimal
  deriving DecidableEq, Repr

abbrev RateCurve := List RatePoint

/-- A number of basis points as a share. -/
def shareOfBps (bps : Int) : Outcome Decimal := Decimal.ofInt bps / Decimal.ofInt fullShareBps

/-- A number of percents as a share. -/
def shareOfPercent (percent : Int) : Outcome Decimal := Decimal.ofInt percent / 100

def ControlPoint.toRatePoint (p : ControlPoint) : Outcome RatePoint := do
  let utilization ← shareOfBps p.utilizationBps
  let rate ← shareOfBps p.borrowRateBps
  pure ⟨utilization, rate⟩

namespace RateCurve

/-- The curve of stored points, up to the first one at full utilization. -/
def ofControlPoints : List ControlPoint → Outcome RateCurve
  | [] => pure []
  | p :: rest => do
    let point ← p.toRatePoint
    if p.utilizationBps = fullShareBps then pure [point]
    else
      let tail ← ofControlPoints rest
      pure (point :: tail)

/-- The rate at `u` on the straight line between two points. -/
def interpolate (p q : RatePoint) (u : Decimal) : Outcome Decimal := do
  let rise ← (← q.rate - p.rate) * (← u - p.utilization)
  p.rate + (← rise / (← q.utilization - p.utilization))

/-- The rate at `u` on the first segment that reaches it, from a point on; `beyond` if none
    does. A vertical segment gives the rate of its first point. -/
def segmentRate (u beyond : Decimal) : RatePoint → List RatePoint → Outcome Decimal
  | _, [] => pure beyond
  | p, q :: rest =>
    if p.utilization ≤ u ∧ u ≤ q.utilization then
      if q.utilization.sameValue p.utilization then pure p.rate else interpolate p q u
    else segmentRate u beyond q rest

/-- The yearly borrow rate at utilization `u`. -/
def rateAt (curve : RateCurve) (u : Decimal) : Outcome Decimal :=
  match curve with
  | [] => .error .emptyCurve
  | first :: rest =>
    let last := (first :: rest).getLast (List.cons_ne_nil first rest)
    if u ≤ first.utilization then pure first.rate
    else if last.utilization ≤ u then pure last.rate
    else segmentRate u last.rate first rest

end RateCurve

end Lending
