/-
  Lending.Decimal.Literal — decimal numbers written as text.

  White space around the text is dropped and underscores are ignored. The rest is an
  optional sign and then digits of any script with at most one point and an optional
  exponent, or the name of an infinity or of a value that is no number. Reading is exact;
  only exponents beyond all bounds are refused.
-/
import Lending.Decimal.Basic
import Lending.Text.Integer

namespace Lending

open Lending.Text (digitValue? isBlank ofDigits splitSign trim)

inductive Literal where
  | finite (value : Decimal)
  | infinite (neg : Bool)
  | notANumber
  /-- Not a number, and no operation may take it. -/
  | signaling
  deriving DecidableEq, Repr

namespace Literal

/-- The largest exponent a leading digit may have. -/
def maxExponent : Int := 999999999999999999

/-- The least exponent a last digit may have. -/
def minExponent : Int := -1999999999999999997

/-- The digits at the front, and what follows them. -/
def spanDigits : List Char → List Nat × List Char
  | [] => ([], [])
  | c :: rest =>
    match digitValue? c with
    | some d =>
      let tail := spanDigits rest
      (d :: tail.1, tail.2)
    | none => ([], c :: rest)

/-- An optional exponent that ends the text. -/
def exponent? : List Char → Option Int
  | [] => some 0
  | c :: rest =>
    if c == 'e' || c == 'E' then
      let (neg, run) := splitSign rest
      match spanDigits run with
      | ([], _) => none
      | (digits, []) => some (if neg then -(ofDigits digits : Int) else ofDigits digits)
      | _ => none
    else none

/-- The digits before and after the point, and what follows them. -/
def splitPoint (cs : List Char) : List Nat × List Nat × List Char :=
  let whole := spanDigits cs
  match whole.2 with
  | '.' :: rest => (whole.1, spanDigits rest)
  | rest => (whole.1, [], rest)

def unsigned? (neg : Bool) (cs : List Char) : Option Decimal := do
  let (whole, places, rest) := splitPoint cs
  if whole.isEmpty && places.isEmpty then none
  else
    let written ← exponent? rest
    let coeff := ofDigits (whole ++ places)
    let exp := written - places.length
    let leading := exp + (max (Decimal.digitCount coeff) 1 : Nat) - 1
    if maxExponent < leading || exp < minExponent then none
    else some (Decimal.normal neg coeff exp)

/-- The name of a special value, in any case; digits may follow the names that mean no
    number. -/
def special? (neg : Bool) (cs : List Char) : Option Literal :=
  let name := cs.map Char.toLower
  let ends := fun rest => (spanDigits rest).2.isEmpty
  if name == ['i', 'n', 'f'] || name == ['i', 'n', 'f', 'i', 'n', 'i', 't', 'y'] then
    some (infinite neg)
  else
    match name with
    | 'n' :: 'a' :: 'n' :: rest => if ends rest then some notANumber else none
    | 's' :: 'n' :: 'a' :: 'n' :: rest => if ends rest then some signaling else none
    | _ => none

def ofString? (text : String) : Option Literal :=
  let body := (trim isBlank text.toList).filter (· != '_')
  let (neg, rest) := splitSign body
  match unsigned? neg rest with
  | some value => some (finite value)
  | none => special? neg rest

end Literal

/-- The number a text writes, if it writes one. -/
def Decimal.ofString? (text : String) : Option Decimal :=
  match Literal.ofString? text with
  | some (.finite value) => some value
  | _ => none

end Lending
