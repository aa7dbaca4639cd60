/-
  Lending.Reserve.Rates — what a pool charges and pays as of its last refresh.

  The curve gives the borrow rate at the current utilization, in nominal slots; it is
  rescaled to the recent duration of a slot. Suppliers get the borrow rate on the part of the
  supply that is lent out, less the protocol's take.
-/
import Lending.Reserve.Pool

namespace Lending.Pool

/-- Nominal slots per actual slot. -/
def slotAdjustment (p : Pool) : Outcome Decimal := do
  (← 1000 / Decimal.ofInt slotsPerSecond) / Decimal.ofInt p.slotDuration

def utilization (p : Pool) : Outcome Decimal := do
  let supply ← p.totalSupply
  if supply.isZero then pure 0 else (← p.borrowed) / supply

def borrowApr (p : Pool) : Outcome Decimal := do
  let curve ← RateCurve.ofControlPoints p.config.borrowRateCurve
  let rate ← curve.rateAt (← p.utilization)
  rate * (← p.slotAdjustment)

def supplyApr (p : Pool) : Outcome Decimal := do
  let kept ← 1 - (← p.protocolTakeRate)
  let utilization ← p.utilization
  (← utilization * (← p.borrowApr)) * kept

def cumulativeBorrowRate (p : Pool) : Outcome Decimal :=
  ScaledFraction.decodeLimbs p.account.liquidity.cumulativeBorrowRateLimbs

end Lending.Pool
