/-
  Lending.ScaledFraction — amounts below one unit, as accounts store them.

  A fraction is stored as a whole number of `1 / scale`; the scale is `2 ^ 60` in the 16
  digits that a binary64 number shows. Wider fractions are lists of 64-bit limbs, lowest
  first. Reading a fraction divides by the scale, writing one multiplies and drops what is
  left over; both round like every money figure.
-/
import Lending.Decimal.Arithmetic
import Lending.Decimal.Literal
import Lending.Decimal.Notation

namespace Lending

def fractionScale : Decimal := ⟨false, 1152921504606847, 3⟩

structure ScaledFraction where
  raw : Nat
  deriving DecidableEq, Repr

namespace ScaledFraction

/-- The fraction that is stored as a number. A negative one is refused, and its number is
    reported if it can be written. -/
def ofInt (raw : Int) : Outcome ScaledFraction :=
  if 0 ≤ raw then pure ⟨raw.toNat⟩
  else if Text.isWritable raw then .error (.negativeFraction raw)
  else .error .numberTooLong

def toDecimal (f : ScaledFraction) : Outcome Decimal := Decimal.ofInt f.raw / fractionScale

/-- The whole part of a number. A number with more places than digits has none. -/
def wholePart (x : Decimal) : Int :=
  let places : Int := min (-x.exp) (Decimal.digitCount x.coeff)
  let size : Int := (x.coeff * tens x.exp / tens places : Nat)
  if x.neg then -size else size

def ofDecimal (x : Decimal) : Outcome ScaledFraction := do
  let scaled ← x * fractionScale
  ofInt (wholePart scaled)

/-- The fraction a text writes. -/
def ofLiteral : Option Literal → Outcome ScaledFraction
  | some (.finite x) => ofDecimal x
  | some (.infinite _) => .error .wholeOfInfinite
  | some .notANumber => .error .wholeOfNotANumber
  | some .signaling => .error .invalidOperation
  | none => .error .invalidOperation

/-! ## Limbs -/

def limbBase : Int := 0x10000000000000000

/-- The number that a list of limbs stands for; limbs of any size add up. -/
def ofLimbs (limbs : List Int) : Int := limbs.foldr (fun limb acc => acc * limbBase + limb) 0

/-- The lowest `count` limbs of a number; a negative one counts down from the top. -/
def toLimbs : Nat → Int → List Int
  | 0, _ => []
  | count + 1, value => value % limbBase :: toLimbs count (value / limbBase)

/-- The value of a stored fraction. -/
def decode (raw : Int) : Outcome Decimal := do (← ofInt raw).toDecimal

/-- The value of a fraction stored as limbs. -/
def decodeLimbs (limbs : List Int) : Outcome Decimal := decode (ofLimbs limbs)

/-- The residue by which fractions are hashed. -/
def hashKey (f : ScaledFraction) : Nat := f.raw % 0x1fffffffffffffff

/-! ## Text -/

def description (f : ScaledFraction) : String := "Fraction(" ++ toString f.raw ++ ")"

/-- The fraction in full: three places if it has no more, all that amounts keep if even
    those do not exhaust it. -/
def text (f : ScaledFraction) : String :=
  match f.toDecimal with
  | .error _ => ""
  | .ok q =>
    if q.isZero then Decimal.scientific 0 (-3)
    else
      let last := q.adjusted - (money.precision - 1)
      let exact := q.inUnits (min q.exp 0) * 1152921504606847000
        == (f.raw * tens (-min q.exp 0) : Nat)
      let target := if exact then max (-3) last else last
      let exp := min q.exp target
      Decimal.scientific (q.inUnits exp).natAbs exp

end ScaledFraction

end Lending
