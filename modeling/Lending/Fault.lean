/-
  Lending.Fault — why a figure cannot be given.

  One constructor per cause, with what the cause is about; the wording is in
  `Lending.Fault.Message`. Every figure of the library is an `Outcome`: the first cause
  met, in the order the figure is computed, is the one reported.
-/
import Lending.Action.Basic

namespace Lending

inductive Fault where
  /-- A nonzero number divided by zero. -/
  | divisionByZero
  /-- Zero divided by zero, or a text that is no number. -/
  | invalidOperation
  /-- A result of more digits before the point than amounts may have. -/
  | overflow
  /-- A whole number asked of a value that is not a number. -/
  | wholeOfNotANumber
  /-- A whole number asked of an infinite value. -/
  | wholeOfInfinite
  | negativeFraction (raw : Int)
  /-- A number that has more digits than are ever written. -/
  | numberTooLong
  | negativeSampleCount
  /-- An entry of a per-group list that the list does not have. -/
  | indexOutOfRange
  /-- A rate map without the reserve it is asked for. -/
  | rateMissing (reserve : String)
  | emptyCurve
  | unknownReserveStatus (code : Int)
  | unknownAction (tag : ActionTag)
  | outflowRequired (action : Action)
  /-- An action that changes no obligation. -/
  | notSimulated (action : Action)
  | groupNotConfigured (group : Int) (market : String)
  /-- The obligation's elevation group does not include the reserve. -/
  | groupDowngrade (purpose : String)
  | reserveNotOnMarket (reserve market : String)
  | depositNotOnMarket (reserve market : String) (amount : Int)
  | borrowNotOnMarket (reserve market : String) (rawDebt : Nat)
  | noReserveForMint (mint : String)
  | noDepositInReserve (obligation reserve : String)
  | unknownMarket (address : String)
  | priceMissing (reserve : String)
  | slotDurationNotPositive (milliseconds : Int)
  deriving DecidableEq, Repr

abbrev Outcome (α : Type) := Except Fault α

namespace Outcome

/-- The value of an option, or the given fault. -/
def ofOption (fault : Fault) : Option α → Outcome α
  | some a => .ok a
  | none => .error fault

/-- A computation in two steps gives a value exactly if both do. -/
theorem bind_eq_ok_iff {o : Outcome α} {next : α → Outcome β} {b : β} :
    o >>= next = .ok b ↔ ∃ a, o = .ok a ∧ next a = .ok b := by
  cases o with
  | error fault => simp [bind, Except.bind]
  | ok a => simp [bind, Except.bind]

end Outcome

end Lending
