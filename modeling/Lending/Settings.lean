/-
  Lending.Settings — the recent duration of a slot.

  An explicit duration must be positive. Otherwise the environment may give one; what it
  gives is ignored with a warning unless it is a positive whole number.
-/
import Lending.Text.Integer
import Lending.Units
import Lending.Warning

namespace Lending

/-- The duration that the text of the environment gives. -/
def slotDurationOfText (text : String) : Logged Int := do
  match Text.integer? text with
  | none => do
    Logged.warn (.slotDurationNotInteger text)
    pure defaultSlotDuration
  | some n =>
    if n ≤ 0 then do
      Logged.warn (.slotDurationNotPositive text)
      pure defaultSlotDuration
    else pure n

def recentSlotDuration (explicit : Option Int) (environment : Option String) : Logged Int :=
  match explicit with
  | some n => Logged.ofOutcome (if n ≤ 0 then .error (.slotDurationNotPositive n) else pure n)
  | none =>
    match environment with
    | none => pure defaultSlotDuration
    | some text => if text = "" then pure defaultSlotDuration else slotDurationOfText text

end Lending
