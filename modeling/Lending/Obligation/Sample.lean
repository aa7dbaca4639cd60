/-
  Lending.Obligation.Sample — a market of the sample reserve with one borrower.

  The borrower holds a deposit and a debt in that reserve, and has an unused slot.
  `obligation` is what valuing the account with the reserve's own rates gives.
-/
import Lending.Obligation.Load
import Lending.Obligation.Scenario
import Lending.Reserve.Sample

namespace Lending.Sample

def market : Market where
  address := "market"
  account := {}
  reserves := ⟨[("reserve", reserve)]⟩

def borrower : ObligationAccount where
  market := "market"
  owner := "owner"
  deposits := [{}, { reserve := "reserve", depositedAmount := 3900000 }]
  borrows := [
    { reserve := "reserve", cumulativeBorrowRateLimbs := [1268213655067531700, 0, 0, 0],
      rawBorrowed := 1000000 * scale }]

/-- The account after a withdrawal of 1000001 collateral tokens. -/
def withdrawn : ObligationAccount :=
  { borrower with deposits := [{}, { reserve := "reserve", depositedAmount := 2899999 }] }

/-- The account after a tenth of the debt, and the smallest unit of it, was paid back. -/
def repaid : ObligationAccount :=
  { borrower with
    borrows := [
      { reserve := "reserve", cumulativeBorrowRateLimbs := [1268213655067531700, 0, 0, 0],
        rawBorrowed := 900000 * scale - 1 }] }

/-- Collateral tokens per base unit of the reserve. -/
def rate : Decimal := ⟨false, 9750004875002437501218750609375304687652, -40⟩

def obligation : Obligation where
  address := "obligation"
  account := borrower
  deposits := ⟨[("reserve", ⟨"reserve", "token", 3999998, ⟨false, 3999998, -6⟩⟩)]⟩
  borrows := ⟨[("reserve", ⟨"reserve", "token", ⟨false, 1, 6⟩, 1⟩)]⟩
  stats := {
    totalDeposit := ⟨false, 3999998, -6⟩
    totalBorrow := 1
    weightedBorrow := 1
    borrowLimit := ⟨false, 31999984, -7⟩
    liquidationLimit := ⟨false, 33999983, -7⟩
    borrowUtilization := ⟨false, 3125001562500781250390625195312597656298, -40⟩
    netValue := ⟨false, 2999998, -6⟩
    loanToValue := ⟨false, 2500001250000625000312500156250078125039, -40⟩
    liquidationLtv := ⟨false, 85, -2⟩
    leverage := ⟨false, 1333333555555703703802469201646134430756, -39⟩ }

def snapshot : Snapshot where
  market := "market"
  marketAccount := {}
  reserves := ⟨[("reserve", account)]⟩
  prices := ⟨[("token", 1)]⟩
  obligations := ⟨[("obligation", borrower)]⟩
  slot := 2000

def request (action : String) (amount : Decimal) (mint : String) : ObligationRequest where
  amount := amount
  action := .text action
  mint := mint

end Lending.Sample
