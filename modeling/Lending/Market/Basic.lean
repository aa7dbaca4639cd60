/-
  Lending.Market.Basic — a lending market with its reserves at one point in time.

  Reserves are kept by address in the order they were added. Several may hold the same token;
  a search by token or symbol finds the first.
-/
import Lending.AddressMap
import Lending.Reserve.Projection

namespace Lending

structure Market where
  address : String
  account : MarketAccount
  reserves : AddressMap Reserve
  slotDuration : Int := defaultSlotDuration
  deriving DecidableEq, Repr

/-- The terms on which a deposit counts as collateral. -/
structure CollateralTerms where
  loanToValue : Decimal
  liquidationThreshold : Decimal
  deriving DecidableEq, Repr

namespace Market

/-- The market of pools, which are opened in order. -/
def ofPools (address : String) (account : MarketAccount) (pools : List Pool) (slotDuration : Int) :
    Outcome Market := do
  let reserves ← pools.mapM Pool.openReserve
  pure ⟨address, account, .ofList (reserves.map fun r => (r.address, r)), slotDuration⟩

def referralFeeBps (m : Market) : Int := m.account.referralFeeBps

def reserveAt? (m : Market) (address : String) : Option Reserve := m.reserves.find? address

def reserveOfMint? (m : Market) (mint : String) : Option Reserve :=
  m.reserves.values.find? (·.mint == mint)

def reserveOfSymbol? (m : Market) (symbol : String) : Option Reserve :=
  m.reserves.values.find? (·.symbol == symbol)

def reserveAt (m : Market) (address : String) : Outcome Reserve :=
  Outcome.ofOption (.reserveNotOnMarket address m.address) (m.reserveAt? address)

def reserveOfMint (m : Market) (mint : String) : Outcome Reserve :=
  Outcome.ofOption (.noReserveForMint mint) (m.reserveOfMint? mint)

/-- The group of a number, counted from 1. -/
def elevationGroup (m : Market) (number : Int) : Outcome ElevationGroup :=
  Outcome.ofOption (.groupNotConfigured number m.address)
    (if number < 1 then none else m.account.elevationGroups[(number - 1).toNat]?)

/-- The terms of a deposit in a reserve: those of the obligation's group if it has one. -/
def collateralTerms (m : Market) (group : Int) (r : Reserve) : Outcome CollateralTerms := do
  if group = 0 then pure ⟨r.stats.loanToValue, r.stats.liquidationThreshold⟩
  else
    let g ← m.elevationGroup group
    let loanToValue ← g.loanToValueIn money
    let liquidationThreshold ← g.liquidationThresholdIn money
    pure ⟨loanToValue, liquidationThreshold⟩

/-! ## Report -/

/-- A reserve's row: supply, debt and values at a slot, and the yields it was opened with. -/
def reserveRow (m : Market) (slot : Int) (r : Reserve) : Outcome (List Cell) := do
  let estimate ← r.debtAndSupplyAt slot m.referralFeeBps
  let utilization ← r.utilization
  let suppliedValue ← r.suppliedValue
  let borrowedValue ← r.borrowedValue
  pure [.text r.symbol, .text r.address, .text r.mint, .text r.stats.status.label,
    .ofDecimal utilization, .ofDecimal r.stats.supplyApy, .ofDecimal r.stats.borrowApy,
    .ofDecimal estimate.supply, .ofDecimal estimate.debt, .ofDecimal suppliedValue,
    .ofDecimal borrowedValue]

def reserveTable (m : Market) (slot : Int) : Outcome Table := do
  let rows ← m.reserves.values.mapM (m.reserveRow slot)
  pure ⟨["symbol", "address", "mint", "status", "utilization", "supply_apy", "borrow_apy",
    "total_supply", "total_borrow", "deposit_tvl", "borrow_tvl"], rows⟩

end Market

end Lending
