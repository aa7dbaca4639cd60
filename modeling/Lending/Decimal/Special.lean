/-
  Lending.Decimal.Special — arithmetic on values that need not be finite.

  A value that is no number stays one through every operation, and is refused where it would
  have to be compared; one that signals is refused by every operation. Infinities behave as
  limits do, and where there is no limit the operation is invalid. Between finite numbers the
  operations are those of `money`.
-/
import Lending.Decimal.Arithmetic
import Lending.Decimal.Literal

namespace Lending.Literal

def isZero : Literal → Bool
  | finite x => x.isZero
  | _ => false

def isNegative : Literal → Bool
  | finite x => x.neg
  | infinite neg => neg
  | _ => false

/-- The value with the other sign; one that is no number has none. -/
def flip : Literal → Literal
  | finite x => finite x.flip
  | infinite neg => infinite (!neg)
  | x => x

/-- What an operation gives: nothing if an operand signals, no number if one is none, else what
    it gives for the numbers that they are. -/
def ofNumbers (x y : Literal) (result : Outcome Literal) : Outcome Literal :=
  if x = signaling ∨ y = signaling then .error .invalidOperation
  else if x = notANumber ∨ y = notANumber then pure notANumber
  else result

protected def add : Literal → Literal → Outcome Literal
  | finite x, finite y => finite <$> (x + y)
  | x, y => ofNumbers x y <|
    match x, y with
    | infinite neg, infinite neg' =>
      if neg = neg' then pure (infinite neg) else .error .invalidOperation
    | infinite neg, _ => pure (infinite neg)
    | _, y => pure y

protected def mul : Literal → Literal → Outcome Literal
  | finite x, finite y => finite <$> (x * y)
  | x, y => ofNumbers x y <|
    if x.isZero || y.isZero then .error .invalidOperation
    else pure (infinite (x.isNegative != y.isNegative))

protected def div : Literal → Literal → Outcome Literal
  | finite x, finite y => finite <$> (x / y)
  | x, y => ofNumbers x y <|
    match x, y with
    | infinite _, infinite _ => .error .invalidOperation
    | infinite neg, y => pure (infinite (neg != y.isNegative))
    | x, y => pure (finite ⟨x.isNegative != y.isNegative, 0, 0⟩)

instance : HAdd Literal Literal (Outcome Literal) := ⟨Literal.add⟩

instance : HSub Literal Literal (Outcome Literal) := ⟨fun x y => x.add y.flip⟩

instance : HMul Literal Literal (Outcome Literal) := ⟨Literal.mul⟩

instance : HDiv Literal Literal (Outcome Literal) := ⟨Literal.div⟩

def negated (x : Literal) : Outcome Literal := finite 0 - x

/-- `numerator / denominator`, or 0 if the denominator is 0. -/
def ratioOrZero (numerator denominator : Literal) : Outcome Literal :=
  if denominator.isZero then pure (finite 0) else numerator / denominator

/-- A value, or 0 if it is negative; what is no number cannot be told from either. -/
def positiveOrZero : Literal → Outcome Literal
  | finite x => pure (finite x.positiveOrZero)
  | infinite neg => pure (if neg then finite 0 else infinite false)
  | _ => .error .invalidOperation

end Lending.Literal
