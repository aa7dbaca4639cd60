/-
  Lending.Market.Load — a market read from a snapshot.

  Every reserve of the market is opened with the oracle price of its token. A reserve without
  a price fails the market; a price flagged as not valid is used and reported.
-/
import Lending.Market.Basic
import Lending.Settings
import Lending.Snapshot.Basic

namespace Lending

namespace Snapshot

/-- Opens the reserve at an address. -/
def openReserve (s : Snapshot) (slotDuration : Int) (address : String)
    (account : ReserveAccount) : Logged Reserve := do
  let price ← Outcome.ofOption (.priceMissing address) (s.priceOf? address account)
  if !price.valid then Logged.warn (.invalidPrice address price.mint)
  Pool.openReserve ⟨address, account, price, slotDuration⟩

/-- Opens reserves in order. -/
def openReserves (s : Snapshot) (slotDuration : Int) :
    List (String × ReserveAccount) → Logged (List (String × Reserve))
  | [] => pure []
  | entry :: rest => do
    let r ← s.openReserve slotDuration entry.1 entry.2
    let others ← s.openReserves slotDuration rest
    pure ((entry.1, r) :: others)

end Snapshot

namespace Market

def load (s : Snapshot) (address : String) (slotDuration : Int) : Logged Market := do
  let account ← s.lendingMarket address
  let reserves ← s.openReserves slotDuration (s.reservesOf address).entries
  pure ⟨address, account, .ofList reserves, slotDuration⟩

/-- The same market as another snapshot has it. -/
def reload (m : Market) (s : Snapshot) : Logged Market := load s m.address m.slotDuration

/-- A market with the slot duration that the settings give. -/
def loadWithSettings (s : Snapshot) (address : String) (duration : Option Int)
    (environment : Option String) : Logged Market := do
  let slotDuration ← recentSlotDuration duration environment
  load s address slotDuration

end Market

end Lending
