/-
  Lending.Obligation.RateMaps — the rates of the reserves that obligations refer to.

  Exchange rates and cumulative borrow rates are projected to one slot and kept by address. A
  reserve that already has an entry is not projected again, so several obligations can share
  the maps. Filling stops at the first reserve that cannot be projected; what was entered
  before stays.
-/
import Lending.Obligation.Basic

namespace Lending

structure RateMaps where
  collateral : RateMap := .empty
  borrow : RateMap := .empty
  deriving DecidableEq, Repr

/-- A map after an attempt to fill it, and the fault that ended the attempt. -/
structure Filled (α : Type) where
  maps : α
  fault : Option Fault := none
  deriving DecidableEq, Repr

namespace RateMap

/-- Enters the rates of the used addresses that have none. -/
def fill (rate : String → Outcome Decimal) (map : RateMap) : List String → Filled RateMap
  | [] => ⟨map, none⟩
  | address :: rest =>
    if isUsedAddress address ∧ ¬ map.contains address then
      match rate address with
      | .ok r => fill rate (map.insert address r) rest
      | .error fault => ⟨map, some fault⟩
    else fill rate map rest

end RateMap

namespace Market

/-- The exchange rate of the reserve at an address. -/
def collateralRateAt (m : Market) (slot : Int) (address : String) : Outcome Decimal := do
  (← m.reserveAt address).exchangeRateAt slot m.referralFeeBps

/-- The cumulative borrow rate of the reserve at an address. -/
def borrowRateAt (m : Market) (slot : Int) (address : String) : Outcome Decimal := do
  (← m.reserveAt address).cumulativeBorrowRateAt slot

/-- Enters the rates of the reserves of an account: deposits first, then borrows. -/
def fillRates (m : Market) (slot : Int) (maps : RateMaps) (a : ObligationAccount) :
    Filled RateMaps :=
  let collateral :=
    RateMap.fill (m.collateralRateAt slot) maps.collateral (a.deposits.map (·.reserve))
  match collateral.fault with
  | some fault => ⟨{ maps with collateral := collateral.maps }, some fault⟩
  | none =>
    let borrow := RateMap.fill (m.borrowRateAt slot) maps.borrow (a.borrows.map (·.reserve))
    ⟨⟨collateral.maps, borrow.maps⟩, borrow.fault⟩

/-- The maps with the rates of an account's reserves. -/
def addRates (m : Market) (slot : Int) (maps : RateMaps) (a : ObligationAccount) :
    Outcome RateMaps :=
  let filled := m.fillRates slot maps a
  match filled.fault with
  | some fault => .error fault
  | none => pure filled.maps

/-- The rates of the reserves of one account. -/
def ratesFor (m : Market) (slot : Int) (a : ObligationAccount) : Outcome RateMaps :=
  m.addRates slot {} a

end Market

end Lending
