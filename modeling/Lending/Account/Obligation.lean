/-
  Lending.Account.Obligation — the account of a borrower, as it is stored.

  An obligation has slots for deposits and for borrows. A slot whose reserve is the null
  address or the empty text is unused, whatever its other fields hold.
-/
import Lending.Account.Reserve

namespace Lending

/-- A deposit, in collateral tokens. -/
structure CollateralSlot where
  reserve : String := nullAddress
  depositedAmount : Int := 0
  rawMarketValue : Int := 0
  deriving DecidableEq, Repr

structure DebtSlot where
  reserve : String := nullAddress
  /-- The reserve's cumulative rate when the debt was last brought up to date. -/
  cumulativeBorrowRateLimbs : List Int := zeroLimbs
  rawBorrowed : Int := 0
  rawMarketValue : Int := 0
  rawAdjustedMarketValue : Int := 0
  deriving DecidableEq, Repr

structure ObligationAccount where
  market : String
  owner : String
  tag : Int := 0
  lastUpdate : LastUpdate := {}
  deposits : List CollateralSlot := []
  borrows : List DebtSlot := []
  rawDepositedValue : Int := 0
  rawAdjustedDebtValue : Int := 0
  rawBorrowedValue : Int := 0
  rawAllowedBorrowValue : Int := 0
  rawUnhealthyBorrowValue : Int := 0
  elevationGroup : Int := 0
  deriving DecidableEq, Repr

namespace ObligationAccount

def usedDeposits (a : ObligationAccount) : List CollateralSlot :=
  a.deposits.filter (isUsedAddress ·.reserve)

def usedBorrows (a : ObligationAccount) : List DebtSlot :=
  a.borrows.filter (isUsedAddress ·.reserve)

/-- The reserves the obligation refers to, deposits first, each once. -/
def reserves (a : ObligationAccount) : List String :=
  (a.usedDeposits.map (·.reserve) ++ a.usedBorrows.map (·.reserve)).eraseDups

end ObligationAccount

end Lending
