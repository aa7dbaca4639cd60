/-
  Lending.Warning — what is reported beside a result, not instead of it.

  A `Logged` computation gives the warnings met so far in order, also if it fails.
-/
import Lending.Fault
import Lending.Text.Quoted

namespace Lending

inductive Warning where
  | invalidPrice (reserve mint : String)
  | obligationMissing (address : String)
  | slotDurationNotInteger (text : String)
  | slotDurationNotPositive (text : String)
  deriving DecidableEq, Repr

/-- The environment variable that gives the recent duration of a slot. -/
def slotDurationVariable : String := "KLEND_RECENT_SLOT_DURATION_MS"

namespace Warning

def message : Warning → String
  | invalidPrice reserve mint =>
    "Oracle price for reserve " ++ reserve ++ " (" ++ mint ++ ") is flagged invalid"
  | obligationMissing address => "Obligation " ++ address ++ " not found"
  | slotDurationNotInteger text =>
    "Ignoring non-integer " ++ slotDurationVariable ++ "=" ++ Text.quoted text
  | slotDurationNotPositive text =>
    "Ignoring non-positive " ++ slotDurationVariable ++ "=" ++ Text.quoted text

end Warning

structure Logged (α : Type) where
  warnings : List Warning
  outcome : Outcome α

namespace Logged

protected def pure (a : α) : Logged α := ⟨[], .ok a⟩

protected def bind (l : Logged α) (f : α → Logged β) : Logged β :=
  match l.outcome with
  | .ok a => ⟨l.warnings ++ (f a).warnings, (f a).outcome⟩
  | .error fault => ⟨l.warnings, .error fault⟩

instance : Monad Logged where
  pure := Logged.pure
  bind := Logged.bind

/-- A result without warnings. -/
def ofOutcome (o : Outcome α) : Logged α := ⟨[], o⟩

instance : MonadLift Outcome Logged := ⟨ofOutcome⟩

/-- A warning and nothing else. -/
def warn (w : Warning) : Logged Unit := ⟨[w], .ok ()⟩

end Logged

end Lending
