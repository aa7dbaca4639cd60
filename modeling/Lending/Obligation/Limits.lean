/-
  Lending.Obligation.Limits — how much an obligation can still borrow or withdraw.

  A loan is bounded by the value that may still be borrowed, and by what the reserve can
  lend; a withdrawal by the deposit itself, by the value the debt needs as collateral, less a
  small safety margin, and by what the reserve can pay out.
-/
import Lending.Obligation.Basic

namespace Lending.Obligation

/-- The part of the largest withdrawal that is offered. -/
def withdrawMargin : Decimal := ⟨false, 995, -3⟩

/-- The loan whose weighted value uses up the borrow limit. -/
def borrowPower (o : Obligation) (r : Reserve) (weight : Decimal) : Outcome Decimal := do
  let remaining ← o.stats.borrowLimit - o.stats.weightedBorrow
  let wholeTokens ← (← remaining / weight) / r.oraclePrice
  wholeTokens * (← r.mintFactor)

/-- What the borrow limit of a reserve leaves; nothing outside of groups if the asset may be
    used inside them only. -/
def lendableRemainder (o : Obligation) (r : Reserve) : Outcome Decimal := do
  let remaining ← r.stats.borrowLimit - (← r.borrowed)
  pure (if r.config.collateralOnlyInGroups = 1 ∧ ¬ o.groupIncludes r then 0 else remaining)

/-- The largest amount of a token that can be borrowed at a slot. -/
def maxBorrow (o : Obligation) (m : Market) (mint : String) (slot : Int) : Outcome Decimal := do
  let r ← m.reserveOfMint mint
  let weight ← if o.groupIncludes r then pure 1 else r.borrowFactor
  let power ← o.borrowPower r weight
  let remaining ← o.lendableRemainder r
  let capped ← r.withinDebtOutflow (min (min power r.available) remaining) slot
  pure (max 0 (← r.netOfBorrowFee capped))

/-- The deposit that a token's reserve holds for the obligation. -/
def depositIn (o : Obligation) (r : Reserve) : Outcome Position :=
  Outcome.ofOption (.noDepositInReserve o.address r.address) (o.deposits.find? r.address)

/-- The loan-to-value a withdrawal from a reserve is judged by. -/
def withdrawLtv (o : Obligation) (m : Market) (r : Reserve) : Outcome Decimal := do
  if o.groupIncludes r then (← m.elevationGroup o.elevationGroup).loanToValueIn money
  else pure r.stats.loanToValue

/-- The amount whose removal uses up the borrow limit, at a loan-to-value. -/
def withdrawPower (o : Obligation) (r : Reserve) (ltv deposited : Decimal) : Outcome Decimal := do
  if ltv.isZero then pure deposited
  else
    let spare ← o.stats.borrowLimit - o.stats.weightedBorrow
    let value ← (← spare / ltv) * withdrawMargin
    (← value / r.oraclePrice) * (← r.mintFactor)

/-- The largest amount of a token that can be withdrawn at a slot. -/
def maxWithdraw (o : Obligation) (m : Market) (mint : String) (slot : Int) :
    Outcome Decimal := do
  let r ← m.reserveOfMint mint
  let deposited := (← o.depositIn r).amount
  if o.stats.weightedBorrow.isZero then pure deposited
  else
    let ltv ← o.withdrawLtv m r
    if o.stats.borrowLimit ≤ o.stats.weightedBorrow then pure 0
    else
      let power ← o.withdrawPower r ltv deposited
      let payable := min (min deposited power) r.available
      pure (max 0 (← r.withinOutflow r.config.depositOutflow payable slot))

end Lending.Obligation
