/-
  Lending.Reserve.Sample — a reserve to try things on.

  A token of 6 decimals, three quarters of it lent out. Its borrowers pay a fixed host rate
  of a percent beside the rate of the curve. `reserve` is what opening `pool` gives.
-/
import Lending.Reserve.Basic

namespace Lending.Sample

def scale : Int := 1152921504606847000

def account : ReserveAccount where
  market := "market"
  liquidity := {
    mint := "token", mintDecimals := 6,
    availableAmount := 1000000000,
    rawBorrowed := 3000000000 * scale,
    cumulativeBorrowRateLimbs := [1268213655067531700, 0, 0, 0],
    rawProtocolFees := 1000 * scale,
    rawReferrerFees := 700 * scale,
    rawPendingReferrerFees := 300 * scale }
  collateral := { mint := "share", totalSupply := 3900000000 }
  config := {
    loanToValuePct := 80, liquidationThresholdPct := 85, protocolTakeRatePct := 10,
    borrowRateCurve := [⟨0, 0⟩, ⟨8000, 800⟩, ⟨10000, 5000⟩],
    hostFixedInterestRateBps := 100 }
  lastUpdate := { slot := 1000 }

def pool : Pool where
  address := "reserve"
  account := account
  price := { mint := "token", price := 1 }

def stats : ReserveStats where
  status := .active
  mint := "token"
  borrowCurve := [⟨0, 0⟩, ⟨⟨false, 8, -1⟩, ⟨false, 8, -2⟩⟩, ⟨1, ⟨false, 5, -1⟩⟩]
  loanToValue := ⟨false, 8, -1⟩
  maxLiquidationBonus := 0
  minLiquidationBonus := 0
  liquidationThreshold := ⟨false, 85, -2⟩
  protocolTakeRate := ⟨false, 1, -1⟩
  depositLimit := 0
  borrowLimit := 0
  symbol := ""
  decimals := 6
  supplyApy := ⟨false, 57862175688483345491928907005586787379, -39⟩
  borrowApy := ⟨false, 86904094749085203968609974062218508811, -39⟩
  protocolFees := ⟨false, 1, -3⟩
  collateralSupply := 3900
  depositLimitCrossedSlot := 0
  borrowLimitCrossedSlot := 0
  borrowFactorPct := 100

def reserve : Reserve := { pool with stats }

/-- A reserve of which nothing is lent out, for a token of a given unit and price. -/
def idle (address mint : String) (decimals : Int) (price : Decimal) : Reserve where
  address := address
  account := {
    market := "market"
    liquidity := { mint := mint, mintDecimals := decimals, availableAmount := 1000 }
    collateral := { mint := "share" }
    config := {
      loanToValuePct := 80, liquidationThresholdPct := 85, borrowLimit := 1000,
      borrowRateCurve := [⟨0, 0⟩, ⟨10000, 5000⟩] } }
  price := { mint := mint, price := price }
  stats := {
    status := .active, mint := mint, borrowCurve := [⟨0, 0⟩, ⟨1, ⟨false, 5, -1⟩⟩],
    loanToValue := ⟨false, 8, -1⟩, maxLiquidationBonus := 0, minLiquidationBonus := 0,
    liquidationThreshold := ⟨false, 85, -2⟩, protocolTakeRate := 0, depositLimit := 0,
    borrowLimit := Decimal.ofInt 1000, symbol := "", decimals := decimals, supplyApy := 0,
    borrowApy := 0, protocolFees := 0, collateralSupply := 0, depositLimitCrossedSlot := 0,
    borrowLimitCrossedSlot := 0, borrowFactorPct := 100 }

end Lending.Sample
