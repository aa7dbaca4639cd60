/-
  Lending.Fault.Message — the wording of faults.
-/
import Lending.Decimal.Shortest
import Lending.ScaledFraction
import Lending.Text.Quoted

namespace Lending

/-- How a message shows a tag. -/
def ActionTag.shown : ActionTag → String
  | .text s => Text.quoted s
  | .absent => "None"
  | .integer n => toString n
  | .truth b => if b then "True" else "False"
  | .binary bits => (Binary64.mk bits).text

namespace Fault

/-- An obligation holds a position in a reserve that its market lacks. -/
def lostReserve (kind title reserve market amount : String) : String :=
  "Obligation contains a " ++ kind ++ " belonging to reserve " ++ reserve ++
    " but the reserve was not found on market " ++ market ++ ". " ++ title ++ " amount: " ++
    amount

def message : Fault → String
  | divisionByZero => "division by zero"
  | invalidOperation => "invalid operation"
  | overflow => "overflow"
  | wholeOfNotANumber => "a value that is not a number has no whole part"
  | wholeOfInfinite => "an infinite value has no whole part"
  | negativeFraction raw => "scaled fraction must be unsigned, got " ++ toString raw
  | numberTooLong => "the number has too many digits to be written"
  | negativeSampleCount => "the number of samples must not be negative"
  | indexOutOfRange => "index out of range"
  | rateMissing reserve => "no rate for reserve " ++ reserve
  | emptyCurve => "borrow rate curve has no points"
  | unknownReserveStatus code => "Unknown reserve status code " ++ toString code
  | unknownAction tag => "Unknown action type " ++ tag.shown
  | outflowRequired action => "Action " ++ action.label ++ " requires an outflow amount"
  | notSimulated action =>
    "Invalid action type " ++ action.label ++ " for obligation simulation"
  | groupNotConfigured group market =>
    "Elevation group " ++ toString group ++ " is not configured on market " ++ market
  | groupDowngrade purpose =>
    "User would have to downgrade the elevation group in order to be able to " ++ purpose ++
      " this reserve"
  | reserveNotOnMarket reserve market =>
    "Reserve " ++ reserve ++ " not found on market " ++ market
  | depositNotOnMarket reserve market amount =>
    lostReserve "deposit" "Deposit" reserve market (toString amount)
  | borrowNotOnMarket reserve market rawDebt =>
    lostReserve "borrow" "Borrow" reserve market (ScaledFraction.text ⟨rawDebt⟩)
  | noReserveForMint mint => "No reserve found for mint " ++ mint
  | noDepositInReserve obligation reserve =>
    "Obligation " ++ obligation ++ " has no deposit in reserve " ++ reserve
  | unknownMarket address => "Unknown lending market " ++ address
  | priceMissing reserve => "Could not find oracle price for reserve " ++ reserve
  | slotDurationNotPositive milliseconds =>
    "recent slot duration must be positive, got " ++ toString milliseconds

end Fault

end Lending
