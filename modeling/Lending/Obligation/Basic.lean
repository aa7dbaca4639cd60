/-
  Lending.Obligation.Basic — a borrower's deposits and borrows, valued in a market.

  A deposit of collateral tokens is worth the part of the supply that they stand for; a
  recorded debt has grown as the cumulative rate of its reserve has since. Values are summed
  slot by slot, in the order of the account. With rates given by address those are used,
  otherwise the reserves' own as of their last refresh.
-/
import Lending.Account.Obligation
import Lending.Market.Basic
import Lending.Position

namespace Lending

/-- Totals over all positions, in dollars. -/
structure ObligationStats where
  totalDeposit : Decimal
  totalBorrow : Decimal
  /-- The debts weighted by the borrow factors of their reserves. -/
  weightedBorrow : Decimal
  borrowLimit : Decimal
  liquidationLimit : Decimal
  borrowUtilization : Decimal
  netValue : Decimal
  loanToValue : Decimal
  liquidationLtv : Decimal
  leverage : Decimal
  /-- The groups the obligation could be in. -/
  potentialGroups : List Int := []
  deriving DecidableEq, Repr

structure DepositTotals where
  positions : AddressMap Position := .empty
  total : Decimal := 0
  /-- The part that counts as collateral. -/
  collateral : Decimal := 0
  borrowLimit : Decimal := 0
  liquidationLimit : Decimal := 0
  deriving DecidableEq, Repr

structure DepositStats extends DepositTotals where
  liquidationLtv : Decimal
  deriving DecidableEq, Repr

structure BorrowStats where
  positions : AddressMap Position := .empty
  total : Decimal := 0
  weighted : Decimal := 0
  /-- How many borrows are not zero. -/
  count : Nat := 0
  deriving DecidableEq, Repr

abbrev RateMap := AddressMap Decimal

/-- The rate of a reserve: from the map if there is one, else the reserve's own. -/
def rateOf (rates : Option RateMap) (r : Reserve) (own : Outcome Decimal) : Outcome Decimal :=
  match rates with
  | some map => Outcome.ofOption (.rateMissing r.address) (map.find? r.address)
  | none => own

/-! ## Deposits -/

namespace CollateralSlot

/-- The value stored at the last refresh. -/
def marketValue (slot : CollateralSlot) : Outcome Decimal :=
  ScaledFraction.decode slot.rawMarketValue

def reserveIn (slot : CollateralSlot) (m : Market) : Outcome Reserve :=
  Outcome.ofOption (.depositNotOnMarket slot.reserve m.address slot.depositedAmount)
    (m.reserveAt? slot.reserve)

end CollateralSlot

namespace DepositTotals

/-- Adds a deposit of a value on given terms. -/
def addValue (t : DepositTotals) (terms : CollateralTerms) (position : Position) :
    Outcome DepositTotals := do
  let total ← t.total + position.value
  let collateral ←
    if terms.loanToValue.isZero then pure t.collateral else t.collateral + position.value
  let borrowLimit ← t.borrowLimit + (← position.value * terms.loanToValue)
  let liquidationLimit ←
    t.liquidationLimit + (← position.value * terms.liquidationThreshold)
  pure { positions := t.positions.insert position.reserve position, total, collateral,
         borrowLimit, liquidationLimit }

/-- Adds the deposit of a used slot. -/
def addSlot (m : Market) (group : Int) (rates : Option RateMap) (t : DepositTotals)
    (slot : CollateralSlot) : Outcome DepositTotals := do
  let r ← slot.reserveIn m
  let terms ← m.collateralTerms group r
  let rate ← rateOf rates r r.exchangeRate
  let amount ← Decimal.ofInt slot.depositedAmount / rate
  let value ← r.valueOf amount
  t.addValue terms ⟨r.address, r.mint, amount, value⟩

end DepositTotals

/-- Values every deposit of an account. -/
def Market.valueDeposits (m : Market) (a : ObligationAccount) (rates : Option RateMap) :
    Outcome DepositStats := do
  let totals ← a.usedDeposits.foldlM (DepositTotals.addSlot m a.elevationGroup rates) {}
  let liquidationLtv ← Decimal.ratioOrZero totals.liquidationLimit totals.total
  pure { totals with liquidationLtv }

/-! ## Borrows -/

namespace DebtSlot

/-- The value stored at the last refresh. -/
def marketValue (slot : DebtSlot) : Outcome Decimal := ScaledFraction.decode slot.rawMarketValue

def adjustedMarketValue (slot : DebtSlot) : Outcome Decimal :=
  ScaledFraction.decode slot.rawAdjustedMarketValue

/-- The debt as it was recorded. -/
def borrowed (slot : DebtSlot) : Outcome Decimal := ScaledFraction.decode slot.rawBorrowed

def cumulativeBorrowRate (slot : DebtSlot) : Outcome Decimal :=
  ScaledFraction.decodeLimbs slot.cumulativeBorrowRateLimbs

def reserveIn (slot : DebtSlot) (m : Market) : Outcome Reserve :=
  Outcome.ofOption (.borrowNotOnMarket slot.reserve m.address slot.rawBorrowed.toNat)
    (m.reserveAt? slot.reserve)

end DebtSlot

namespace BorrowStats

/-- Adds a debt of a value and a weight. -/
def addValue (t : BorrowStats) (weight : Decimal) (position : Position) :
    Outcome BorrowStats := do
  let total ← t.total + position.value
  let weighted ← t.weighted + (← position.value * weight)
  pure { positions := t.positions.insert position.reserve position, total, weighted,
         count := if position.amount.isZero then t.count else t.count + 1 }

/-- Adds the debt of a used slot. -/
def addSlot (m : Market) (group : Int) (rates : Option RateMap) (t : BorrowStats)
    (slot : DebtSlot) : Outcome BorrowStats := do
  let recorded ← slot.borrowed
  let r ← slot.reserveIn m
  let recordedRate ← slot.cumulativeBorrowRate
  let rate ← rateOf rates r r.cumulativeBorrowRate
  let amount ← (← recorded * rate) / recordedRate
  let value ← r.valueOf amount
  let weight ← r.debtWeight group
  t.addValue weight ⟨r.address, r.mint, amount, value⟩

end BorrowStats

/-- Brings every debt of an account up to date and values it. -/
def Market.valueBorrows (m : Market) (a : ObligationAccount) (rates : Option RateMap) :
    Outcome BorrowStats :=
  a.usedBorrows.foldlM (BorrowStats.addSlot m a.elevationGroup rates) {}

/-! ## Obligations -/

structure Obligation where
  address : String
  account : ObligationAccount
  deposits : AddressMap Position
  borrows : AddressMap Position
  stats : ObligationStats
  deriving DecidableEq, Repr

/-- The groups that every reserve of an obligation is in. -/
def Market.potentialGroups (m : Market) (a : ObligationAccount) : Outcome (List Int) := do
  let reserves ← a.reserves.mapM m.reserveAt
  pure (commonGroups (reserves.map (·.elevationGroups)))

namespace Obligation

/-- The obligation of an account, valued in a market. -/
def value (m : Market) (address : String) (account : ObligationAccount)
    (collateralRates borrowRates : Option RateMap) : Outcome Obligation := do
  let potentialGroups ← m.potentialGroups account
  let deposits ← m.valueDeposits account collateralRates
  let borrows ← m.valueBorrows account borrowRates
  let netValue ← deposits.total - borrows.total
  let borrowUtilization ← Decimal.ratioOrZero borrows.weighted deposits.borrowLimit
  let loanToValue ← Decimal.ratioOrZero borrows.weighted deposits.total
  let leverage ← Decimal.ratioOrZero deposits.total netValue
  pure {
    address, account, deposits := deposits.positions, borrows := borrows.positions,
    stats := {
      totalDeposit := deposits.total, totalBorrow := borrows.total,
      weightedBorrow := borrows.weighted, borrowLimit := deposits.borrowLimit,
      liquidationLimit := deposits.liquidationLimit, borrowUtilization, netValue, loanToValue,
      liquidationLtv := deposits.liquidationLtv, leverage, potentialGroups } }

def elevationGroup (o : Obligation) : Int := o.account.elevationGroup

/-- Whether the obligation's group includes a reserve. -/
def groupIncludes (o : Obligation) (r : Reserve) : Bool :=
  o.elevationGroup != 0 && r.elevationGroups.contains o.elevationGroup

def depositOfMint? (o : Obligation) (mint : String) : Option Position :=
  o.deposits.values.find? (·.mint == mint)

def borrowOfMint? (o : Obligation) (mint : String) : Option Position :=
  o.borrows.values.find? (·.mint == mint)

def positionCount (o : Obligation) : Nat := o.deposits.size + o.borrows.size

/-- Weighted debt per deposit. -/
def loanToValue (o : Obligation) : Outcome Decimal :=
  Decimal.ratioOrZero o.stats.weightedBorrow o.stats.totalDeposit

/-- What a debt has grown by since it was recorded, 0 if it has not. -/
def debtGrowth (r : Reserve) (slot : DebtSlot) (now : Int) : Outcome Decimal := do
  let estimated ← r.cumulativeBorrowRateAt now
  let recorded ← slot.cumulativeBorrowRate
  if recorded < estimated then estimated / recorded else pure 0

/-! ## Figures stored at the last refresh -/

def storedDepositedValue (o : Obligation) : Outcome Decimal :=
  ScaledFraction.decode o.account.rawDepositedValue

def storedBorrowedValue (o : Obligation) : Outcome Decimal :=
  ScaledFraction.decode o.account.rawBorrowedValue

def storedWeightedBorrow (o : Obligation) : Outcome Decimal :=
  ScaledFraction.decode o.account.rawAdjustedDebtValue

def storedAllowedBorrow (o : Obligation) : Outcome Decimal :=
  ScaledFraction.decode o.account.rawAllowedBorrowValue

def storedUnhealthyBorrow (o : Obligation) : Outcome Decimal :=
  ScaledFraction.decode o.account.rawUnhealthyBorrowValue

/-! ## Report -/

def positionRow (side : String) (p : Position) : List Cell :=
  [.text side, .text p.reserve, .text p.mint, .ofDecimal p.amount, .ofDecimal p.value]

def positionTable (o : Obligation) : Table :=
  ⟨["side", "reserve", "mint", "amount", "market_value"],
    o.deposits.values.map (positionRow "deposit") ++
      o.borrows.values.map (positionRow "borrow")⟩

def description (o : Obligation) : String :=
  "KaminoObligation(" ++ o.address ++ ", deposits=" ++ toString o.deposits.size ++
    ", borrows=" ++ toString o.borrows.size ++ ")"

end Obligation

end Lending
