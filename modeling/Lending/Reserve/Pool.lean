/-
  Lending.Reserve.Pool — one pooled asset as of its last refresh.

  A pool is a reserve account with the oracle price of its token. Its figures are as of the
  slot of the last refresh: total supply is what is available plus what is lent out, less
  the fees set aside; a collateral token stands for a fixed part of it.
-/
import Lending.Account.Market
import Lending.Account.Reserve
import Lending.ScaledFraction
import Lending.Text.Utf8

namespace Lending

inductive ReserveStatus where
  | active
  | obsolete
  | hidden
  deriving DecidableEq, Repr

namespace ReserveStatus

def ofCode (code : Int) : Outcome ReserveStatus :=
  if code = 0 then pure active
  else if code = 1 then pure obsolete
  else if code = 2 then pure hidden
  else .error (.unknownReserveStatus code)

def label : ReserveStatus → String
  | active => "ACTIVE"
  | obsolete => "OBSOLETE"
  | hidden => "HIDDEN"

end ReserveStatus

/-- The name in a field that is padded with zero bytes. -/
def tokenSymbol (name : List UInt8) : String := Text.decodeUtf8 (name.takeWhile (· != 0))

/-- Entry `i` of a per-group list; a negative index counts from the end. -/
def groupEntry (entries : List Int) (i : Int) : Outcome Int :=
  let place := if i < 0 then i + entries.length else i
  if place < 0 then .error .indexOutOfRange
  else Outcome.ofOption .indexOutOfRange entries[place.toNat]?

structure Pool where
  address : String
  account : ReserveAccount
  price : OraclePrice
  /-- The recent duration of a slot, in milliseconds. -/
  slotDuration : Int := defaultSlotDuration
  deriving DecidableEq, Repr

namespace Pool

def config (p : Pool) : ReserveConfig := p.account.config

def symbol (p : Pool) : String := tokenSymbol p.config.tokenName

def mint (p : Pool) : String := p.account.liquidity.mint

def elevationGroups (p : Pool) : List Int := p.config.elevationGroups

/-! ## Amounts -/

def available (p : Pool) : Decimal := Decimal.ofInt p.account.liquidity.availableAmount

def borrowed (p : Pool) : Outcome Decimal := ScaledFraction.decode p.account.liquidity.rawBorrowed

/-- The price stored at the last refresh. -/
def storedPrice (p : Pool) : Outcome Decimal :=
  ScaledFraction.decode p.account.liquidity.rawMarketPrice

def oraclePrice (p : Pool) : Decimal := p.price.price

def protocolFees (p : Pool) : Outcome Decimal :=
  ScaledFraction.decode p.account.liquidity.rawProtocolFees

def referrerFees (p : Pool) : Outcome Decimal :=
  ScaledFraction.decode p.account.liquidity.rawReferrerFees

def pendingReferrerFees (p : Pool) : Outcome Decimal :=
  ScaledFraction.decode p.account.liquidity.rawPendingReferrerFees

def totalSupply (p : Pool) : Outcome Decimal := do
  let gross ← p.available + (← p.borrowed)
  let afterProtocol ← gross - (← p.protocolFees)
  let afterReferrers ← afterProtocol - (← p.referrerFees)
  afterReferrers - (← p.pendingReferrerFees)

/-- Base units in a whole token. -/
def mintFactor (p : Pool) : Outcome Decimal := Decimal.powerOfTen p.account.liquidity.mintDecimals

/-- The value in dollars of an amount in base units. -/
def valueOf (p : Pool) (amount : Decimal) : Outcome Decimal := do
  (← amount * p.oraclePrice) / (← p.mintFactor)

def suppliedValue (p : Pool) : Outcome Decimal := do p.valueOf (← p.totalSupply)

def borrowedValue (p : Pool) : Outcome Decimal := do p.valueOf (← p.borrowed)

/-! ## Collateral tokens -/

/-- Collateral tokens per base unit, for a given supply; 1 while there are none. -/
def exchangeRateFor (p : Pool) (supply : Decimal) : Outcome Decimal :=
  if p.account.collateral.totalSupply = 0 ∨ supply.isZero then pure 1
  else Decimal.ofInt p.account.collateral.totalSupply / supply

def exchangeRate (p : Pool) : Outcome Decimal := do p.exchangeRateFor (← p.totalSupply)

/-! ## Fees -/

def flashLoanFee (p : Pool) : Outcome Decimal :=
  if p.config.fees.rawFlashLoanFee = maxWord then pure 0
  else ScaledFraction.decode p.config.fees.rawFlashLoanFee

/-- The share of a new loan that is charged when it is taken. -/
def borrowFee (p : Pool) : Outcome Decimal := ScaledFraction.decode p.config.fees.rawBorrowFee

/-- The yearly rate charged on top of the curve's. -/
def fixedHostRate (p : Pool) : Outcome Decimal := shareOfBps p.config.hostFixedInterestRateBps

def protocolTakeRate (p : Pool) : Outcome Decimal := shareOfPercent p.config.protocolTakeRatePct

/-- The weight of a debt in this asset. -/
def borrowFactor (p : Pool) : Outcome Decimal := shareOfPercent p.config.borrowFactorPct

/-- What is left of an amount when the fee on what is left is paid out of it. -/
def netOfBorrowFee (p : Pool) (amount : Decimal) : Outcome Decimal := do
  let fee ← p.borrowFee
  let share ← fee / (← fee + 1)
  amount - (← amount * share)

/-! ## Limits -/

def depositLimitCrossed (p : Pool) : Outcome Bool := do
  pure (Decimal.ofInt p.config.depositLimit < (← p.totalSupply))

def borrowLimitCrossed (p : Pool) : Outcome Bool := do
  pure (Decimal.ofInt p.config.borrowLimit < (← p.borrowed))

/-- Slots between the last refresh and a later slot. -/
def slotsSince (p : Pool) (slot : Int) : Int := max (slot - p.account.lastUpdate.slot) 0

/-- What left within the current interval; after a day nothing counts any more. -/
def outflowAt (p : Pool) (cap : OutflowCap) (slot : Int) : Decimal :=
  if slotsPerDay < p.slotsSince slot then 0 else Decimal.ofInt cap.currentTotal

/-- An amount cut to what a daily cap still lets out. -/
def withinOutflow (p : Pool) (cap : OutflowCap) (amount : Decimal) (slot : Int) :
    Outcome Decimal := do
  let capacity := Decimal.ofInt cap.capacity
  if 0 < capacity then
    let remaining ← capacity - p.outflowAt cap slot
    pure (min amount remaining)
  else pure amount

/-- An amount cut to what may still be lent today. -/
def withinDebtOutflow (p : Pool) (amount : Decimal) (slot : Int) : Outcome Decimal :=
  p.withinOutflow p.config.debtOutflow amount slot

def borrowLimitOutsideGroups (p : Pool) : Decimal :=
  Decimal.ofInt p.config.borrowLimitOutsideGroups

def borrowedOutsideGroups (p : Pool) : Decimal := Decimal.ofInt p.account.borrowedOutsideGroups

/-- The debt limit against this collateral in the group numbered `index + 1`. -/
def groupBorrowLimit (p : Pool) (index : Int) : Outcome Decimal := do
  pure (Decimal.ofInt (← groupEntry p.config.groupBorrowLimits index))

def groupBorrowed (p : Pool) (index : Int) : Outcome Decimal := do
  pure (Decimal.ofInt (← groupEntry p.account.groupBorrowed index))

end Pool

end Lending
