/-
  Lending.Obligation.Extended — actions of any amount, infinite ones and no numbers among them.

  Such an action is tried leg by leg as any other is. What it makes of a scenario may be
  infinite; obligations and markets have finite figures. For finite amounts this is
  `Obligation.simulate` (`simulate_ofFinite`).
-/
import Lending.Decimal.Special
import Lending.Obligation.Scenario

namespace Lending.Extended

structure Position where
  reserve : String
  mint : String
  amount : Literal
  value : Literal
  deriving DecidableEq, Repr

/-- The fields of `ObligationStats`. -/
structure Stats where
  totalDeposit : Literal
  totalBorrow : Literal
  weightedBorrow : Literal
  borrowLimit : Literal
  liquidationLimit : Literal
  borrowUtilization : Literal
  netValue : Literal
  loanToValue : Literal
  liquidationLtv : Literal
  leverage : Literal
  potentialGroups : List Int
  deriving DecidableEq, Repr

structure Scenario where
  stats : Stats
  deposits : AddressMap Position
  borrows : AddressMap Position
  deriving DecidableEq, Repr

structure Leg where
  kind : LegKind
  amount : Literal
  mint : String
  deriving DecidableEq, Repr

/-! ## Finite figures -/

def Position.ofFinite (p : Lending.Position) : Position :=
  ⟨p.reserve, p.mint, .finite p.amount, .finite p.value⟩

def Stats.ofFinite (s : ObligationStats) : Stats where
  totalDeposit := .finite s.totalDeposit
  totalBorrow := .finite s.totalBorrow
  weightedBorrow := .finite s.weightedBorrow
  borrowLimit := .finite s.borrowLimit
  liquidationLimit := .finite s.liquidationLimit
  borrowUtilization := .finite s.borrowUtilization
  netValue := .finite s.netValue
  loanToValue := .finite s.loanToValue
  liquidationLtv := .finite s.liquidationLtv
  leverage := .finite s.leverage
  potentialGroups := s.potentialGroups

def Scenario.ofFinite (s : Lending.Scenario) : Scenario where
  stats := .ofFinite s.stats
  deposits := s.deposits.map .ofFinite
  borrows := s.borrows.map .ofFinite

/-! ## Legs -/

namespace Stats

def addDeposit (s : Stats) (terms : CollateralTerms) (value : Literal) : Outcome Stats := do
  let totalDeposit ← (← s.totalDeposit + value).positiveOrZero
  let liquidationLimit ←
    (← s.liquidationLimit + (← value * Literal.finite terms.liquidationThreshold)).positiveOrZero
  let borrowLimit ←
    (← s.borrowLimit + (← value * Literal.finite terms.loanToValue)).positiveOrZero
  let liquidationLtv ← Literal.ratioOrZero liquidationLimit totalDeposit
  pure { s with totalDeposit, borrowLimit, liquidationLimit, liquidationLtv }

def addBorrow (s : Stats) (value weightedValue : Literal) : Outcome Stats := do
  let totalBorrow ← (← s.totalBorrow + value).positiveOrZero
  let weightedBorrow ← (← s.weightedBorrow + weightedValue).positiveOrZero
  pure { s with totalBorrow, weightedBorrow }

def refresh (s : Stats) : Outcome Stats := do
  let netValue ← s.totalDeposit - s.totalBorrow
  let loanToValue ← Literal.ratioOrZero s.weightedBorrow s.totalDeposit
  let leverage ← Literal.ratioOrZero s.totalDeposit netValue
  let borrowUtilization ← Literal.ratioOrZero s.weightedBorrow s.borrowLimit
  pure { s with netValue, loanToValue, leverage, borrowUtilization }

end Stats

namespace Position

def add (p : Position) (amount value : Literal) : Outcome Position := do
  let newAmount ← (← p.amount + amount).positiveOrZero
  let newValue ← (← p.value + value).positiveOrZero
  pure { p with amount := newAmount, value := newValue }

def ofMint (positions : AddressMap Position) (r : Reserve) (mint : String) : Position :=
  (positions.values.reverse.find? (·.mint == mint)).getD
    ⟨r.address, mint, .finite 0, .finite 0⟩

end Position

def valueOf (p : Pool) (amount : Literal) : Outcome Literal := do
  (← amount * Literal.finite p.oraclePrice) / Literal.finite (← p.mintFactor)

variable (o : Obligation) (m : Market)

def addDeposit (s : Scenario) (amount : Literal) (mint : String) : Outcome Scenario := do
  let r ← m.reserveOfMint mint
  let position := Position.ofMint s.deposits r mint
  let terms ← m.collateralTerms o.elevationGroup r
  o.requireGroup r "deposit in"
  let value ← valueOf r.toPool amount
  let stats ← s.stats.addDeposit terms value
  let changed ← position.add amount value
  pure { s with stats, deposits := s.deposits.insert position.reserve changed }

def addBorrow (s : Scenario) (amount : Literal) (mint : String) : Outcome Scenario := do
  let r ← m.reserveOfMint mint
  let position := Position.ofMint s.borrows r mint
  o.requireGroup r "borrow from"
  let weight ← r.debtWeight o.elevationGroup
  let value ← valueOf r.toPool amount
  let stats ← s.stats.addBorrow value (← value * Literal.finite weight)
  let changed ← position.add amount value
  pure { s with stats, borrows := s.borrows.insert position.reserve changed }

def addLeg (s : Scenario) (leg : Leg) : Outcome Scenario := do
  match leg.kind with
  | .deposit => addDeposit o m s leg.amount leg.mint
  | .withdraw => addDeposit o m s (← leg.amount.negated) leg.mint
  | .borrow => addBorrow o m s leg.amount leg.mint
  | .repay => addBorrow o m s (← leg.amount.negated) leg.mint

def addLegs (s : Scenario) (legs : List Leg) : Outcome Scenario := legs.foldlM (addLeg o m) s

/-! ## Actions -/

structure Request where
  amount : Literal
  action : ActionTag
  mint : String
  outflow : Option Literal := none
  outflowMint : Option String := none

namespace Request

def legs (q : Request) (action : Action) : Outcome (List Leg) :=
  let first := fun kind => Leg.mk kind q.amount q.mint
  let second := fun kind => Leg.mk kind (q.outflow.getD q.amount) (q.outflowMint.getD q.mint)
  match action with
  | .deposit => pure [first .deposit]
  | .withdraw => pure [first .withdraw]
  | .borrow => pure [first .borrow]
  | .repay => pure [first .repay]
  | .depositAndBorrow => pure [first .deposit, second .borrow]
  | .repayAndWithdraw => pure [first .repay, second .withdraw]
  | .mint | .redeem => .error (.notSimulated action)

end Request

/-- The obligation after an action. -/
def simulate (q : Request) : Outcome Scenario := do
  let action ← q.action.resolve
  let final ← addLegs o m (.ofFinite o.scenario) (← q.legs action)
  let stats ← final.stats.refresh
  pure { final with stats }

end Lending.Extended
