/-
  Lending.ElevationGroup — groups of related assets with better borrowing terms.

  Groups are numbered from 1; number 0 means no group. A group's terms replace those of the
  single reserves. `commonGroups` counts, over the groups that several reserves list, in how
  many lists each occurs.
-/
import Lending.RateCurve.Basic

namespace Lending

structure ElevationGroup where
  id : Int
  ltvPct : Int
  liquidationThresholdPct : Int
  maxLiquidationBonusBps : Int := 0
  allowNewLoans : Bool := true
  debtReserve : String := nullAddress
  deriving DecidableEq, Repr

namespace ElevationGroup

/-- The group's loan-to-value as a share, worked out in a context. -/
def loanToValueIn (c : Context) (g : ElevationGroup) : Outcome Decimal :=
  c.div (Decimal.ofInt g.ltvPct) 100

def liquidationThresholdIn (c : Context) (g : ElevationGroup) : Outcome Decimal :=
  c.div (Decimal.ofInt g.liquidationThresholdPct) 100

end ElevationGroup

/-- The groups a reserve is in, each once. -/
def ownGroups (listed : List Int) : List Int := listed.eraseDups.filter (· != 0)

/-- The groups that occur in every list, in the order of their first appearance. -/
def commonGroups (lists : List (List Int)) : List Int :=
  let occurrences := lists.flatMap ownGroups
  occurrences.eraseDups.filter fun g => occurrences.count g == lists.length

end Lending
