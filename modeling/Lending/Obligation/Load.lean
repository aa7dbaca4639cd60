/-
  Lending.Obligation.Load — obligations read from a snapshot and valued at a slot.

  One obligation is valued with the rates of its own reserves. A batch is valued with shared
  maps: they are filled for all accounts first, so that each reserve is projected once.
-/
import Lending.Market.Load
import Lending.Obligation.RateMaps

namespace Lending

namespace Obligation

/-- The obligation of an account, with the rates of a pair of maps. -/
def valueWith (m : Market) (maps : RateMaps) (address : String) (account : ObligationAccount) :
    Outcome Obligation :=
  value m address account (some maps.collateral) (some maps.borrow)

/-- The obligation of an account, valued at a slot. -/
def valueAt (m : Market) (slot : Int) (address : String) (account : ObligationAccount) :
    Outcome Obligation := do
  let maps ← m.ratesFor slot account
  valueWith m maps address account

/-- The obligation at an address, valued at a slot or at the snapshot's own; none, with a
    warning, if there is no such account. -/
def load (m : Market) (s : Snapshot) (address : String) (slot : Option Int) :
    Logged (Option Obligation) := do
  match s.obligation? address with
  | none => do
    Logged.warn (.obligationMissing address)
    pure none
  | some account => some <$> Logged.ofOutcome (valueAt m (slot.getD s.slot) address account)

/-- The rates of the reserves of several accounts, those that are missing skipped. -/
def sharedRates (m : Market) (slot : Int) (accounts : List (Option ObligationAccount)) :
    Outcome RateMaps :=
  (accounts.filterMap id).foldlM (m.addRates slot) {}

/-- The obligations at several addresses; none for an address without an account. -/
def loadAll (m : Market) (s : Snapshot) (addresses : List String) (slot : Option Int) :
    Outcome (List (Option Obligation)) := do
  let maps ← sharedRates m (slot.getD s.slot) (addresses.map s.obligation?)
  addresses.mapM fun address =>
    match s.obligation? address with
    | none => pure none
    | some account => some <$> valueWith m maps address account

end Obligation

end Lending
