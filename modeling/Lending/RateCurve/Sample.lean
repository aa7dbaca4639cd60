/-
  Lending.RateCurve.Sample — a rate curve sampled for plotting.

  The samples lie on an even grid of binary64 numbers from 0 to 1. Each is read as the
  shortest decimal that stands for it; borrow and supply rates are then worked out as amounts
  and rounded into the cells.
-/
import Lending.Decimal.Shortest
import Lending.RateCurve.Basic
import Lending.Table

namespace Lending.RateCurve

/-- `count` grid points: multiples of the rounded step, then 1 itself. -/
def grid : Nat → List Binary64
  | 0 => []
  | 1 => [.ofRatio 0 1]
  | steps + 1 =>
    let step := Binary64.ofRatio 1 steps
    (List.range steps).map step.times ++ [.ofRatio 1 1]

/-- One sample: utilization, borrow rate and supply rate. -/
def sampleRow (curve : RateCurve) (slotAdjustment takeRate : Decimal) (point : Binary64) :
    Outcome (List Cell) := do
  let utilization := point.shortest
  let borrow ← (← curve.rateAt utilization) * slotAdjustment
  let supply ← (← utilization * borrow) * (← 1 - takeRate)
  pure [.number point, .ofDecimal borrow, .ofDecimal supply]

def sample (curve : RateCurve) (slotAdjustment takeRate : Decimal) (count : Int) :
    Outcome Table := do
  if count < 0 then .error .negativeSampleCount
  else
    let rows ← (grid count.toNat).mapM (curve.sampleRow slotAdjustment takeRate)
    pure ⟨["utilization", "borrow_rate", "supply_rate"], rows⟩

end Lending.RateCurve
