/-
  Lending.Snapshot.Sample — a small market to try things on.

  Three reserves (SOL, USDC, JitoSOL), one elevation group in which SOL is lent against
  related assets, and two obligations, one of them in the group.
-/
import Lending.ScaledFraction
import Lending.Snapshot.Basic

namespace Lending.Snapshot.Sample

def slot : Int := 290000000

def market : String := "7u3HeHxYDLhnCoErrtycNokbQYbWGzLs6JSDqGAv5PfF"

def solMint : String := "So11111111111111111111111111111111111111112"

def usdcMint : String := "EPjFWdd5AufqSSqeM2qN1xzybapC8G4wEGGkZwyTDt1v"

def jitoSolMint : String := "J1toso1uCk3RLmjorhTtrVwY9HJ7X8V9yYac6Y7kGCPn"

def solReserve : String := "d4A2prbA2whesmvHaL88BH6Ewn5N4bTSU2Ze8P6Bc4Q"

def usdcReserve : String := "D6q6wuQSrifJKZYpR1M8R4YawnLDtDsMmWM1NbBmgJ59"

def jitoSolReserve : String := "EVbyPKrHG6WBfm4dLxLMJpUDY43cCAcHSpV3KYjKsktW"

def owner : String := "9WzDXwBbmkg8ZTbNMqUxvQRAyrZzDsGYdLVL9zYtAWWM"

def plainObligation : String := "HvWQhWxtzKNFk7M6HKA2KTS8FukHLDXVRH7Nv3QXs3Mk"

def groupObligation : String := "5zb8XwSS3hHPAyY2xwnDnqzqT4Am6ymDXbRzHbhjxbTR"

/-- The scaled fraction for a number of ten-thousandths. -/
def rawOf (tenThousandths : Int) : Int := tenThousandths * 1152921504606847000 / 10000

def limbsOf (tenThousandths : Int) : List Int := ScaledFraction.toLimbs 4 (rawOf tenThousandths)

/-- The scaled fraction for a whole number. -/
def rawOfWhole (n : Int) : Int := rawOf (n * 10000)

/-- Base units of whole SOL, JitoSOL included. -/
def sol (tokens : Int) : Int := tokens * 1000000000

/-- Base units of whole USDC. -/
def usdc (tokens : Int) : Int := tokens * 1000000

/-- A symbol in a name field of 32 bytes. -/
def nameField (symbol : String) : List UInt8 :=
  let bytes := symbol.toUTF8.toList
  bytes ++ List.replicate (32 - bytes.length) 0

def solGroup : ElevationGroup :=
  { id := 1, ltvPct := 90, liquidationThresholdPct := 92, maxLiquidationBonusBps := 200,
    debtReserve := solReserve }

def solCurve : List ControlPoint := [⟨0, 0⟩, ⟨8000, 800⟩, ⟨9000, 2000⟩, ⟨10000, 15000⟩]

def usdcCurve : List ControlPoint := [⟨0, 0⟩, ⟨9000, 1200⟩, ⟨10000, 10000⟩]

def lastUpdate : LastUpdate := { slot := slot - 150 }

def solAccount : ReserveAccount where
  market := market
  liquidity := {
    mint := solMint, mintDecimals := 9,
    availableAmount := sol 1800000,
    rawBorrowed := rawOfWhole (sol 1450000),
    rawMarketPrice := rawOf 1452000,
    cumulativeBorrowRateLimbs := limbsOf 10870,
    rawProtocolFees := rawOfWhole (sol 1200) }
  collateral := {
    mint := "2UywZrUdyqs5vDchy7fKQJKau2RVyuzBev2XKGPDSiX1",
    totalSupply := sol 3080000 }
  config := {
    loanToValuePct := 74, liquidationThresholdPct := 75,
    minLiquidationBonusBps := 200, maxLiquidationBonusBps := 1000,
    protocolTakeRatePct := 15, borrowFactorPct := 100,
    depositLimit := sol 5000000, borrowLimit := sol 3000000,
    borrowRateCurve := solCurve, fees := { rawBorrowFee := rawOf 10 },
    elevationGroups := [1], utilizationCeilingPct := 95, tokenName := nameField "SOL" }
  lastUpdate := lastUpdate

def usdcAccount : ReserveAccount where
  market := market
  liquidity := {
    mint := usdcMint, mintDecimals := 6,
    availableAmount := usdc 95000000,
    rawBorrowed := rawOfWhole (usdc 160000000),
    rawMarketPrice := rawOfWhole 1,
    cumulativeBorrowRateLimbs := limbsOf 11420 }
  collateral := {
    mint := "B8V6WVjPxW1UGwVDfxH2d2r8SyT4cqn7dQRK6XneVa7D",
    totalSupply := usdc 236000000 }
  config := {
    loanToValuePct := 80, liquidationThresholdPct := 85,
    minLiquidationBonusBps := 200, maxLiquidationBonusBps := 500,
    protocolTakeRatePct := 10, borrowFactorPct := 100,
    depositLimit := usdc 300000000, borrowLimit := usdc 250000000,
    borrowRateCurve := usdcCurve, fees := { rawBorrowFee := rawOf 5 },
    tokenName := nameField "USDC" }
  lastUpdate := lastUpdate

def jitoSolAccount : ReserveAccount where
  market := market
  liquidity := {
    mint := jitoSolMint, mintDecimals := 9,
    availableAmount := sol 900000,
    rawBorrowed := rawOfWhole (sol 12000),
    rawMarketPrice := rawOf 1689000,
    cumulativeBorrowRateLimbs := limbsOf 10030 }
  collateral := {
    mint := "6sga2ts9ALPo2cAqSRzqB3Dfc1eYBTazkEthE4RZBwbZ",
    totalSupply := sol 911000 }
  config := {
    loanToValuePct := 65, liquidationThresholdPct := 70,
    minLiquidationBonusBps := 200, maxLiquidationBonusBps := 1000,
    protocolTakeRatePct := 15, borrowFactorPct := 150,
    depositLimit := sol 2000000, borrowLimit := sol 100000,
    borrowRateCurve := solCurve, elevationGroups := [1], tokenName := nameField "JITOSOL" }
  lastUpdate := lastUpdate

def plainAccount : ObligationAccount where
  market := market
  owner := owner
  lastUpdate := lastUpdate
  deposits := [{ reserve := solReserve, depositedAmount := sol 95 }, {}]
  borrows := [
    { reserve := usdcReserve, cumulativeBorrowRateLimbs := limbsOf 11410,
      rawBorrowed := rawOfWhole (usdc 4000) }]

def groupAccount : ObligationAccount where
  market := market
  owner := owner
  lastUpdate := lastUpdate
  deposits := [{ reserve := jitoSolReserve, depositedAmount := sol 500 }]
  borrows := [
    { reserve := solReserve, cumulativeBorrowRateLimbs := limbsOf 10800,
      rawBorrowed := rawOfWhole (sol 300) }]
  elevationGroup := 1

end Sample

/-- The sample market as of a slot. -/
def sample (slot : Int) : Snapshot where
  market := Sample.market
  marketAccount := { elevationGroups := [Sample.solGroup] }
  reserves := .ofList [
    (Sample.solReserve, Sample.solAccount), (Sample.usdcReserve, Sample.usdcAccount),
    (Sample.jitoSolReserve, Sample.jitoSolAccount)]
  prices := .ofList [
    (Sample.solMint, ⟨false, 14537, -2⟩), (Sample.usdcMint, ⟨false, 99995, -5⟩),
    (Sample.jitoSolMint, ⟨false, 16912, -2⟩)]
  obligations := .ofList [
    (Sample.plainObligation, Sample.plainAccount), (Sample.groupObligation, Sample.groupAccount)]
  slot := slot

end Lending.Snapshot
