/-
  Lending.Market.BorrowLimit — the most that can be borrowed against one collateral.

  The largest loan is cut in turn by the liquidity, the borrow limit, the daily outflow, the
  borrow fee, the utilization ceiling, and the debt limit of the elevation group. The group
  is, of those that both reserves list and that lend this asset, the one with the highest
  loan-to-value; of equal ones the last.
-/
import Lending.Market.Basic

namespace Lending

namespace Market

/-- Whether a group that the collateral lists can be used for a debt in `r`. -/
def isEligible (m : Market) (r : Reserve) (group : Int) : Outcome Bool := do
  if group ≠ 0 ∧ r.elevationGroups.contains group then
    pure ((← m.elevationGroup group).debtReserve == r.address)
  else pure false

/-- The groups that can be used for a debt in `r`, of those a collateral lists. -/
def eligibleGroups (m : Market) (r : Reserve) : List Int → Outcome (List Int)
  | [] => pure []
  | group :: rest => do
    let eligible ← m.isEligible r group
    let others ← m.eligibleGroups r rest
    pure (if eligible then group :: others else others)

/-- The group of the highest loan-to-value, from a first one on; the last of equal ones. -/
def bestGroup (m : Market) (best : ElevationGroup) : List Int → Outcome ElevationGroup
  | [] => pure best
  | group :: rest => do
    let candidate ← m.elevationGroup group
    m.bestGroup (if best.ltvPct ≤ candidate.ltvPct then candidate else best) rest

/-- The number of the best group for a debt in `r` against a collateral, 0 if there is none. -/
def bestGroupFor (m : Market) (r collateral : Reserve) : Outcome Int := do
  match ← m.eligibleGroups r collateral.elevationGroups with
  | [] => pure 0
  | first :: rest => pure (← m.bestGroup (← m.elevationGroup first) rest).id

end Market

namespace Reserve

/-- What the group debt limit leaves; without a group, the limit outside of groups. -/
def groupRemainder (r : Reserve) (group : Int) : Outcome Decimal := do
  if group ≠ 0 ∧ r.elevationGroups.contains group then
    let limit ← r.groupBorrowLimit (group - 1)
    let borrowed ← r.groupBorrowed (group - 1)
    pure (max 0 (min (← limit - borrowed) (Decimal.ofInt maxWord)))
  else r.borrowLimitOutsideGroups - r.borrowedOutsideGroups

/-- The largest loan by liquidity, borrow limit and outflow, the fee included. -/
def lendable (r : Reserve) (slot : Int) : Outcome Decimal := do
  let remaining ← r.stats.borrowLimit - (← r.borrowed)
  let capped ← r.withinDebtOutflow (min r.available remaining) slot
  r.netOfBorrowFee capped

/-- An amount cut by the utilization ceiling; nothing if that is exceeded already. -/
def withinCeiling (r : Reserve) (amount : Decimal) : Outcome (Option Decimal) := do
  let ceiling ← shareOfPercent r.config.utilizationCeilingPct
  if 0 < ceiling then
    let utilization ← r.utilization
    if ceiling < utilization then pure none
    else
      let byCeiling ← (← ceiling - utilization) * (← r.totalSupply)
      pure (some (min amount byCeiling))
  else pure (some amount)

/-- The most that can be borrowed from `r` against a collateral. -/
def maxBorrowAgainst (r : Reserve) (m : Market) (collateral : Reserve) (slot : Int) :
    Outcome Decimal := do
  let group ← m.bestGroupFor r collateral
  match ← r.withinCeiling (← r.lendable slot) with
  | none => pure 0
  | some amount => pure (max 0 (min amount (← r.groupRemainder group)))

end Reserve

end Lending
