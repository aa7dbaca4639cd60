/-
  Lending.Account.Reserve — the account of a reserve, as it is stored.

  Amounts are in base units of the token. A field named `raw` holds a scaled fraction, one
  named `limbs` a wide one, and shares are in percent or basis points. Nothing is checked
  here; what a field must satisfy is checked by the figures that use it.
-/
import Lending.RateCurve.Basic

namespace Lending

/-- A limit on what may leave a reserve within a day; capacity 0 means no limit. -/
structure OutflowCap where
  capacity : Int := 0
  currentTotal : Int := 0
  intervalStart : Int := 0
  intervalSeconds : Int := 0
  deriving DecidableEq, Repr

structure ReserveFees where
  rawBorrowFee : Int := 0
  /-- The largest word means that the reserve gives no flash loans. -/
  rawFlashLoanFee : Int := 0
  deriving DecidableEq, Repr

/-- One zero for each of the 32 groups a market may have. -/
def noGroupAmounts : List Int := List.replicate 32 0

def zeroLimbs : List Int := List.replicate 4 0

structure ReserveConfig where
  status : Int := 0
  loanToValuePct : Int := 0
  liquidationThresholdPct : Int := 0
  minLiquidationBonusBps : Int := 0
  maxLiquidationBonusBps : Int := 0
  protocolTakeRatePct : Int := 0
  borrowFactorPct : Int := 100
  depositLimit : Int := 0
  borrowLimit : Int := 0
  borrowRateCurve : List ControlPoint := []
  fees : ReserveFees := {}
  hostFixedInterestRateBps : Int := 0
  elevationGroups : List Int := []
  /-- 1 if the asset counts as collateral inside its groups only. -/
  collateralOnlyInGroups : Int := 0
  /-- The utilization in percent above which nothing may be borrowed; 0 means no ceiling. -/
  utilizationCeilingPct : Int := 0
  borrowLimitOutsideGroups : Int := maxWord
  /-- Per group, the most that may be borrowed against this collateral. -/
  groupBorrowLimits : List Int := noGroupAmounts
  depositOutflow : OutflowCap := {}
  debtOutflow : OutflowCap := {}
  /-- The token's name, padded with zero bytes. -/
  tokenName : List UInt8 := []
  deriving DecidableEq, Repr

structure ReserveLiquidity where
  mint : String
  mintDecimals : Int
  availableAmount : Int := 0
  rawBorrowed : Int := 0
  rawMarketPrice : Int := 0
  cumulativeBorrowRateLimbs : List Int := zeroLimbs
  rawProtocolFees : Int := 0
  rawReferrerFees : Int := 0
  rawPendingReferrerFees : Int := 0
  tokenProgram : String := "TokenkegQfeZyiNwAJbNbGKPFXCWuBvf9Ss623VQ5DA"
  depositLimitCrossedSlot : Int := 0
  borrowLimitCrossedSlot : Int := 0
  deriving DecidableEq, Repr

structure ReserveCollateral where
  mint : String
  /-- Collateral tokens issued so far. -/
  totalSupply : Int := 0
  deriving DecidableEq, Repr

structure LastUpdate where
  slot : Int := 0
  stale : Bool := false
  deriving DecidableEq, Repr

structure ReserveAccount where
  market : String
  liquidity : ReserveLiquidity
  collateral : ReserveCollateral
  config : ReserveConfig := {}
  lastUpdate : LastUpdate := {}
  borrowedOutsideGroups : Int := 0
  /-- Per group, what is borrowed against this collateral. -/
  groupBorrowed : List Int := noGroupAmounts
  deriving DecidableEq, Repr

end Lending
