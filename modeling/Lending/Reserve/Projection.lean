/-
  Lending.Reserve.Projection — a pool as it will be at a later slot.

  The debt grows by the borrow rate and the fixed host rate together. Of the interest, the
  fixed host part and the protocol's take of the rest are fees; a share of the take goes to
  referrers. Up to the slot of the last refresh nothing has accrued, and the stored figures
  are given without compounding.
-/
import Lending.Reserve.Basic

namespace Lending

structure DebtAndSupply where
  debt : Decimal
  supply : Decimal
  deriving DecidableEq, Repr

structure CompoundedInterest where
  newDebt : Decimal
  /-- The interest without the fixed host part. -/
  netNewDebt : Decimal
  protocolFee : Decimal
  hostFee : Decimal
  /-- The share of the net interest that may go to referrers. -/
  referralRate : Decimal
  referralFees : Decimal
  protocolFees : Decimal
  pendingReferralFees : Decimal
  deriving DecidableEq, Repr

structure ProtocolFees where
  accumulated : Decimal
  protocolFee : Decimal
  hostFee : Decimal
  deriving DecidableEq, Repr

namespace Pool

/-- The interest of a number of slots and how it is divided. -/
def compound (p : Pool) (slots referralFeeBps : Int) : Outcome CompoundedInterest := do
  let borrowApr ← p.borrowApr
  let takeRate ← p.protocolTakeRate
  let referralShare ← shareOfBps referralFeeBps
  let hostRate ← p.fixedHostRate
  let growth ← Interest.growthFactor (← borrowApr + hostRate) slots
  let hostGrowth ← Interest.growthFactor hostRate slots
  let debt ← p.borrowed
  let newDebt ← debt * growth
  let hostFee ← (← debt * hostGrowth) - debt
  let netNewDebt ← (← newDebt - debt) - hostFee
  let protocolFee ← netNewDebt * takeRate
  let referralRate ← takeRate * referralShare
  let referralFees ← netNewDebt * referralRate
  let accrued ← (← protocolFee + hostFee) - referralFees
  let protocolFees ← accrued + (← p.protocolFees)
  let pendingReferralFees ← (← p.pendingReferrerFees) + referralFees
  pure { newDebt, netNewDebt, protocolFee, hostFee, referralRate, referralFees, protocolFees,
         pendingReferralFees }

/-- The supply once interest was compounded. -/
def supplyAfter (p : Pool) (interest : CompoundedInterest) : Outcome Decimal := do
  let gross ← p.available + interest.newDebt
  let afterProtocol ← gross - interest.protocolFees
  let afterReferrers ← afterProtocol - (← p.referrerFees)
  afterReferrers - interest.pendingReferralFees

def debtAndSupplyAt (p : Pool) (slot referralFeeBps : Int) : Outcome DebtAndSupply := do
  if p.slotsSince slot = 0 then
    let debt ← p.borrowed
    let supply ← p.totalSupply
    pure ⟨debt, supply⟩
  else
    let interest ← p.compound (p.slotsSince slot) referralFeeBps
    let supply ← p.supplyAfter interest
    pure ⟨interest.newDebt, supply⟩

def totalSupplyAt (p : Pool) (slot referralFeeBps : Int) : Outcome Decimal := do
  pure (← p.debtAndSupplyAt slot referralFeeBps).supply

def exchangeRateAt (p : Pool) (slot referralFeeBps : Int) : Outcome Decimal := do
  p.exchangeRateFor (← p.totalSupplyAt slot referralFeeBps)

/-- The cumulative borrow rate, by which the debt of every borrower grows. -/
def cumulativeBorrowRateAt (p : Pool) (slot : Int) : Outcome Decimal := do
  let borrowApr ← p.borrowApr
  let growth ← Interest.growthFactor borrowApr (p.slotsSince slot)
  (← p.cumulativeBorrowRate) * growth

def protocolFeesAt (p : Pool) (slot referralFeeBps : Int) : Outcome ProtocolFees := do
  if p.slotsSince slot = 0 then
    let accumulated ← p.protocolFees
    pure ⟨accumulated, 0, 0⟩
  else
    let interest ← p.compound (p.slotsSince slot) referralFeeBps
    pure ⟨interest.protocolFees, interest.protocolFee, interest.hostFee⟩

end Pool

end Lending
