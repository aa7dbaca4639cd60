/-
  Lending.Snapshot.Basic — the accounts and prices of a market, kept in memory.

  A snapshot holds the accounts of one market as of one slot. Oracle prices are given by
  token; those of some reserves may be flagged as not valid.
-/
import Lending.AddressMap
import Lending.Account.Market
import Lending.Account.Obligation

namespace Lending

structure Snapshot where
  market : String
  marketAccount : MarketAccount
  reserves : AddressMap ReserveAccount
  /-- Prices by token. -/
  prices : AddressMap Decimal
  obligations : AddressMap ObligationAccount
  slot : Int
  /-- The reserves whose prices are flagged as not valid. -/
  flagged : List String := []
  deriving DecidableEq, Repr

namespace Snapshot

def lendingMarket (s : Snapshot) (address : String) : Outcome MarketAccount :=
  if address = s.market then pure s.marketAccount else .error (.unknownMarket address)

/-- The reserves of a market. -/
def reservesOf (s : Snapshot) (market : String) : AddressMap ReserveAccount :=
  s.reserves.filter (·.market == market)

/-- The price of a reserve's token, if the token has one. -/
def priceOf? (s : Snapshot) (address : String) (account : ReserveAccount) : Option OraclePrice :=
  (s.prices.find? account.liquidity.mint).map fun price =>
    { mint := account.liquidity.mint, price, decimals := account.liquidity.mintDecimals,
      valid := !s.flagged.contains address }

/-- The prices of the reserves of a market that have one. -/
def pricesOf (s : Snapshot) (market : String) : AddressMap OraclePrice :=
  ⟨(s.reservesOf market).entries.filterMap fun entry =>
    (s.priceOf? entry.1 entry.2).map fun price => (entry.1, price)⟩

def obligation? (s : Snapshot) (address : String) : Option ObligationAccount :=
  s.obligations.find? address

end Snapshot

end Lending
