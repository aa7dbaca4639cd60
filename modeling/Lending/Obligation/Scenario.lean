/-
  Lending.Obligation.Scenario — an obligation after actions that did not happen.

  A scenario holds totals and positions, and changes leg by leg; neither the obligation nor
  the market changes. A leg moves an amount of one token in or out of one side. Totals and
  positions never fall below zero. The ratios are worked out anew once all legs are done.
-/
import Lending.Action.Resolve
import Lending.Obligation.Basic

namespace Lending

structure Scenario where
  stats : ObligationStats
  deposits : AddressMap Position
  borrows : AddressMap Position
  deriving DecidableEq, Repr

inductive LegKind where
  | deposit
  | withdraw
  | borrow
  | repay
  deriving DecidableEq, Repr

/-- One step of an action: an amount of one token moved one way. -/
structure Leg where
  kind : LegKind
  amount : Decimal
  mint : String
  deriving DecidableEq, Repr

namespace ObligationStats

/-- The totals after a change of the deposits by a value, on given terms. -/
def addDeposit (s : ObligationStats) (terms : CollateralTerms) (value : Decimal) :
    Outcome ObligationStats := do
  let totalDeposit := (← s.totalDeposit + value).positiveOrZero
  let liquidationLimit :=
    (← s.liquidationLimit + (← value * terms.liquidationThreshold)).positiveOrZero
  let borrowLimit := (← s.borrowLimit + (← value * terms.loanToValue)).positiveOrZero
  let liquidationLtv ← Decimal.ratioOrZero liquidationLimit totalDeposit
  pure { s with totalDeposit, borrowLimit, liquidationLimit, liquidationLtv }

/-- The totals after a change of the borrows by a value, which counts with a weight. -/
def addBorrow (s : ObligationStats) (value weightedValue : Decimal) :
    Outcome ObligationStats := do
  let totalBorrow := (← s.totalBorrow + value).positiveOrZero
  let weightedBorrow := (← s.weightedBorrow + weightedValue).positiveOrZero
  pure { s with totalBorrow, weightedBorrow }

/-- Works out the ratios that depend on the totals. -/
def refresh (s : ObligationStats) : Outcome ObligationStats := do
  let netValue ← s.totalDeposit - s.totalBorrow
  let loanToValue ← Decimal.ratioOrZero s.weightedBorrow s.totalDeposit
  let leverage ← Decimal.ratioOrZero s.totalDeposit netValue
  let borrowUtilization ← Decimal.ratioOrZero s.weightedBorrow s.borrowLimit
  pure { s with netValue, loanToValue, leverage, borrowUtilization }

end ObligationStats

namespace Position

/-- The position after a change by an amount of a value. -/
def add (p : Position) (amount value : Decimal) : Outcome Position := do
  let newAmount := (← p.amount + amount).positiveOrZero
  let newValue := (← p.value + value).positiveOrZero
  pure { p with amount := newAmount, value := newValue }

/-- The last position in a token, or an empty one in a reserve. -/
def ofMint (positions : AddressMap Position) (r : Reserve) (mint : String) : Position :=
  (positions.values.reverse.find? (·.mint == mint)).getD ⟨r.address, mint, 0, 0⟩

end Position

namespace Obligation

/-- The obligation's group, if it has one, must include the reserve. -/
def requireGroup (o : Obligation) (r : Reserve) (purpose : String) : Outcome Unit :=
  if o.elevationGroup ≠ 0 ∧ ¬ r.elevationGroups.contains o.elevationGroup then
    .error (.groupDowngrade purpose)
  else pure ()

/-- A deposit of an amount of a token, or a withdrawal if the amount is negative. -/
def addDeposit (o : Obligation) (m : Market) (s : Scenario) (amount : Decimal) (mint : String) :
    Outcome Scenario := do
  let r ← m.reserveOfMint mint
  let position := Position.ofMint s.deposits r mint
  let terms ← m.collateralTerms o.elevationGroup r
  o.requireGroup r "deposit in"
  let value ← r.valueOf amount
  let stats ← s.stats.addDeposit terms value
  let changed ← position.add amount value
  pure { s with stats, deposits := s.deposits.insert position.reserve changed }

/-- A borrow of an amount of a token, or a repayment if the amount is negative. -/
def addBorrow (o : Obligation) (m : Market) (s : Scenario) (amount : Decimal) (mint : String) :
    Outcome Scenario := do
  let r ← m.reserveOfMint mint
  let position := Position.ofMint s.borrows r mint
  o.requireGroup r "borrow from"
  let weight ← r.debtWeight o.elevationGroup
  let value ← r.valueOf amount
  let stats ← s.stats.addBorrow value (← value * weight)
  let changed ← position.add amount value
  pure { s with stats, borrows := s.borrows.insert position.reserve changed }

/-- One leg of an action. -/
def addLeg (o : Obligation) (m : Market) (s : Scenario) (leg : Leg) : Outcome Scenario := do
  match leg.kind with
  | .deposit => o.addDeposit m s leg.amount leg.mint
  | .withdraw => o.addDeposit m s (← leg.amount.negated) leg.mint
  | .borrow => o.addBorrow m s leg.amount leg.mint
  | .repay => o.addBorrow m s (← leg.amount.negated) leg.mint

/-- Legs one after the other. -/
def addLegs (o : Obligation) (m : Market) (s : Scenario) (legs : List Leg) : Outcome Scenario :=
  legs.foldlM (o.addLeg m) s

/-- The scenario in which nothing was done. -/
def scenario (o : Obligation) : Scenario := ⟨o.stats, o.deposits, o.borrows⟩

end Obligation

/-- An action on an obligation. A composite action's second leg has the amount and the token
    of the first unless others are given. -/
structure ObligationRequest where
  amount : Decimal
  action : ActionTag
  mint : String
  outflow : Option Decimal := none
  outflowMint : Option String := none

namespace ObligationRequest

/-- The legs of an action, in order; issuing and redeeming tokens are none of an obligation. -/
def legs (q : ObligationRequest) (action : Action) : Outcome (List Leg) :=
  let first := fun kind => Leg.mk kind q.amount q.mint
  let second := fun kind => Leg.mk kind (q.outflow.getD q.amount) (q.outflowMint.getD q.mint)
  match action with
  | .deposit => pure [first .deposit]
  | .withdraw => pure [first .withdraw]
  | .borrow => pure [first .borrow]
  | .repay => pure [first .repay]
  | .depositAndBorrow => pure [first .deposit, second .borrow]
  | .repayAndWithdraw => pure [first .repay, second .withdraw]
  | .mint | .redeem => .error (.notSimulated action)

end ObligationRequest

/-- The obligation after an action. -/
def Obligation.simulate (o : Obligation) (m : Market) (q : ObligationRequest) :
    Outcome Scenario := do
  let action ← q.action.resolve
  let final ← o.addLegs m o.scenario (← q.legs action)
  let stats ← final.stats.refresh
  pure { final with stats }

end Lending
