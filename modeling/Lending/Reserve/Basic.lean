/-
  Lending.Reserve.Basic — a pool that was checked, with the figures derived from it once.

  Opening a pool works out every derived figure; the first one that cannot be given is the
  reason why the pool cannot be opened. The status code is checked before the curve is
  looked at.
-/
import Lending.Interest
import Lending.RateCurve.Sample
import Lending.Reserve.Rates
import Lending.Text.Quoted

namespace Lending

structure ReserveStats where
  status : ReserveStatus
  mint : String
  borrowCurve : RateCurve
  loanToValue : Decimal
  maxLiquidationBonus : Decimal
  minLiquidationBonus : Decimal
  liquidationThreshold : Decimal
  protocolTakeRate : Decimal
  depositLimit : Decimal
  borrowLimit : Decimal
  symbol : String
  decimals : Int
  supplyApy : Decimal
  borrowApy : Decimal
  /-- In whole tokens. -/
  protocolFees : Decimal
  /-- Collateral tokens issued, in whole tokens. -/
  collateralSupply : Decimal
  depositLimitCrossedSlot : Int
  borrowLimitCrossedSlot : Int
  borrowFactorPct : Int
  deriving DecidableEq, Repr

structure Reserve extends Pool where
  stats : ReserveStats
  deriving DecidableEq, Repr

namespace Pool

def deriveStats (p : Pool) : Outcome ReserveStats := do
  let mintFactor ← p.mintFactor
  let status ← ReserveStatus.ofCode p.config.status
  let borrowCurve ← RateCurve.ofControlPoints p.config.borrowRateCurve
  let loanToValue ← shareOfPercent p.config.loanToValuePct
  let maxLiquidationBonus ← shareOfBps p.config.maxLiquidationBonusBps
  let minLiquidationBonus ← shareOfBps p.config.minLiquidationBonusBps
  let liquidationThreshold ← shareOfPercent p.config.liquidationThresholdPct
  let protocolTakeRate ← p.protocolTakeRate
  let supplyApy ← Interest.yearlyYield (← p.supplyApr)
  let borrowApy ← Interest.yearlyYield (← p.borrowApr)
  let protocolFees ← (← p.protocolFees) / mintFactor
  let collateralSupply ← Decimal.ofInt p.account.collateral.totalSupply / mintFactor
  pure {
    status, mint := p.mint, borrowCurve, loanToValue, maxLiquidationBonus, minLiquidationBonus,
    liquidationThreshold, protocolTakeRate,
    depositLimit := Decimal.ofInt p.config.depositLimit,
    borrowLimit := Decimal.ofInt p.config.borrowLimit,
    symbol := p.symbol, decimals := p.account.liquidity.mintDecimals,
    supplyApy, borrowApy, protocolFees, collateralSupply,
    depositLimitCrossedSlot := p.account.liquidity.depositLimitCrossedSlot,
    borrowLimitCrossedSlot := p.account.liquidity.borrowLimitCrossedSlot,
    borrowFactorPct := p.config.borrowFactorPct }

/-- The reserve of a pool. -/
def openReserve (p : Pool) : Outcome Reserve := do
  let stats ← p.deriveStats
  pure { p with stats }

end Pool

namespace Reserve

/-- A newer state of the same reserve, at the same price if no other is given. -/
def refreshed (r : Reserve) (account : ReserveAccount) (price : Option OraclePrice) :
    Outcome Reserve :=
  Pool.openReserve ⟨r.address, account, price.getD r.price, r.slotDuration⟩

def sampleCurve (r : Reserve) (count : Int) : Outcome Table := do
  r.stats.borrowCurve.sample (← r.slotAdjustment) r.stats.protocolTakeRate count

/-- What a debt in this reserve weighs for an obligation; inside a group nothing is added. -/
def debtWeight (r : Reserve) (elevationGroup : Int) : Outcome Decimal :=
  if elevationGroup ≠ 0 then pure 1 else shareOfPercent r.stats.borrowFactorPct

def description (r : Reserve) : String :=
  "KaminoReserve(" ++ Text.quoted r.symbol ++ ", " ++ r.address ++ ")"

end Reserve

end Lending
