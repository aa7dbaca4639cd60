/-
  Lending.Reserve.Simulation — the rates of a reserve after a user's action.

  An action changes the projected debt and supply of the pool; the new utilization gives new
  rates. A composite action moves a second amount the other way.
-/
import Lending.Action.Resolve
import Lending.Reserve.Projection

namespace Lending

namespace DebtAndSupply

def utilization (d : DebtAndSupply) : Outcome Decimal :=
  if d.supply.isZero then pure 0 else d.debt / d.supply

/-- Debt and supply after an action. -/
def after (d : DebtAndSupply) (action : Action) (amount : Decimal) (outflow : Option Decimal) :
    Outcome DebtAndSupply := do
  let second := Outcome.ofOption (.outflowRequired action) outflow
  match action with
  | .deposit | .mint => do
    let supply ← d.supply + amount
    pure { d with supply }
  | .withdraw | .redeem => do
    let supply ← d.supply - amount
    pure { d with supply }
  | .borrow => do
    let debt ← d.debt + amount
    pure { d with debt }
  | .repay => do
    let debt ← d.debt - amount
    pure { d with debt }
  | .depositAndBorrow => do
    let debt ← d.debt + (← second)
    let supply ← d.supply + amount
    pure ⟨debt, supply⟩
  | .repayAndWithdraw => do
    let debt ← d.debt - amount
    let supply ← d.supply - (← second)
    pure ⟨debt, supply⟩

end DebtAndSupply

/-- An action on a reserve at a slot, as a caller asks for it. -/
structure ReserveRequest where
  amount : Decimal
  action : ActionTag
  slot : Int
  referralFeeBps : Int
  outflow : Option Decimal := none

namespace Pool

/-- Debt and supply after a request. -/
def debtAndSupplyAfter (p : Pool) (q : ReserveRequest) : Outcome DebtAndSupply := do
  let action ← q.action.resolve
  let estimate ← p.debtAndSupplyAt q.slot q.referralFeeBps
  estimate.after action q.amount q.outflow

def utilizationAfter (p : Pool) (q : ReserveRequest) : Outcome Decimal := do
  (← p.debtAndSupplyAfter q).utilization

end Pool

namespace Reserve

def borrowAprAfter (r : Reserve) (q : ReserveRequest) : Outcome Decimal := do
  let rate ← r.stats.borrowCurve.rateAt (← r.utilizationAfter q)
  rate * (← r.slotAdjustment)

def supplyAprAfter (r : Reserve) (q : ReserveRequest) : Outcome Decimal := do
  let utilization ← r.utilizationAfter q
  let borrowApr ← r.borrowAprAfter q
  let kept ← 1 - r.stats.protocolTakeRate
  (← utilization * borrowApr) * kept

end Reserve

end Lending
