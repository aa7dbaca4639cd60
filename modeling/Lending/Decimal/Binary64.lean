/-
  Lending.Decimal.Binary64 — binary64 numbers, by their bits.

  Cells of tables hold them, and callers may name an action by one. The bits are the sign,
  then `(e + 1074) · 2 ^ 52 + m` for the value `m · 2 ^ e`, where `m` below `2 ^ 52` occurs
  with the least exponent only. An exact value is rounded to the nearest, from the middle to
  the even one; what is too large becomes infinite.
-/
import Lending.Decimal.Literal
import Lending.Decimal.Rounding

namespace Lending

structure Binary64 where
  bits : UInt64
  deriving DecidableEq, Repr

namespace Binary64

def signBit : Nat := 0x8000000000000000

def infinityBits : Nat := 0x7ff0000000000000

/-- The least mantissa with all its digits. -/
def leadingBit : Nat := 0x10000000000000

/-- The exponent `e` that gives `num / den` 53 binary digits, or the least one. -/
def scaleExponent (num den : Nat) : Int :=
  let k : Int := (num.log2 : Int) - den.log2
  let top := if den * twos k ≤ num * twos (-k) then k else k - 1
  max (top - 52) (-1074)

/-- The number nearest to `num / den`, both positive. -/
def nearest (num den : Nat) : Nat :=
  let e := scaleExponent num den
  let m := Rounding.halfEven.quotient (num * twos (-e)) (den * twos e)
  min ((e + 1074).toNat * leadingBit + m) infinityBits

/-- The number nearest to a fraction that is not negative. -/
def ofRatio (num den : Nat) : Binary64 :=
  ⟨UInt64.ofNat (if num = 0 then 0 else nearest num den)⟩

/-- The number nearest to a decimal. Decimals of absurd exponents are not worked out. -/
def ofDecimal (x : Decimal) : Binary64 :=
  let size :=
    if x.isZero || x.adjusted < -400 then 0
    else if 400 < x.adjusted then infinityBits
    else nearest (x.coeff * tens x.exp) (tens (-x.exp))
  ⟨UInt64.ofNat (if x.neg then signBit + size else size)⟩

/-- An infinite number. -/
def infinity (neg : Bool) : Binary64 :=
  ⟨UInt64.ofNat (if neg then signBit + infinityBits else infinityBits)⟩

/-- The value that is no number. -/
def notANumber : Binary64 := ⟨0x7ff8000000000000⟩

/-- The number a text writes, rounded to the nearest. -/
def ofString? (text : String) : Option Binary64 :=
  match Literal.ofString? text with
  | some (.finite x) => some (ofDecimal x)
  | some (.infinite neg) => some (infinity neg)
  | some .notANumber => some notANumber
  | _ => none

/-- The whole number `m` of a finite number `m · 2 ^ e`, without its sign. -/
def mantissa (b : Binary64) : Nat :=
  let size := b.bits.toNat % signBit
  if size < leadingBit then size else leadingBit + size % leadingBit

/-- The exponent `e` of a finite number `m · 2 ^ e`. -/
def exponent (b : Binary64) : Int :=
  let size := b.bits.toNat % signBit
  if size < leadingBit then -1074 else (size / leadingBit : Nat) - 1075

/-- `k` times a number that is not negative, rounded once. -/
def times (b : Binary64) (k : Nat) : Binary64 :=
  ofRatio (k * b.mantissa * twos b.exponent) (twos (-b.exponent))

end Binary64

end Lending
