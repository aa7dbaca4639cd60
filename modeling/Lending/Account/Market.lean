/-
  Lending.Account.Market — the account of a lending market, and oracle prices.
-/
import Lending.ElevationGroup

namespace Lending

structure MarketAccount where
  referralFeeBps : Int := 0
  elevationGroups : List ElevationGroup := []
  deriving DecidableEq, Repr

/-- The price of a whole token in dollars. -/
structure OraclePrice where
  mint : String
  price : Decimal
  timestamp : Int := 0
  decimals : Int := 0
  valid : Bool := true
  deriving DecidableEq, Repr

end Lending
