/-
  Lending.Decimal.Notation — decimal numbers as text.

  `plain` writes every digit and no exponent, and every zero as `0`. `scientific` shows a
  coefficient and an exponent as they are given: positional while the exponent is at most 0
  and at most five zeros follow the point, otherwise with one digit before the point.
-/
import Lending.Decimal.Basic

namespace Lending.Decimal

def digits (n : Nat) : List Char := (toString n).toList

/-- Puts the point before the last `places` digits, with zeros where digits are missing. -/
def withPoint (ds : List Char) (places : Nat) : List Char :=
  if places = 0 then ds
  else
    let full := List.replicate (places + 1 - ds.length) '0' ++ ds
    full.take (full.length - places) ++ '.' :: full.drop (full.length - places)

def plain (x : Decimal) : String :=
  if x.isZero then "0"
  else
    let body :=
      if 0 ≤ x.exp then digits x.coeff ++ List.replicate x.exp.toNat '0'
      else withPoint (digits x.coeff) (-x.exp).toNat
    String.ofList (if x.neg then '-' :: body else body)

/-- The text of `coeff · 10 ^ exp`, none of whose digits is dropped. -/
def scientific (coeff : Nat) (exp : Int) : String :=
  let ds := digits coeff
  let leading := exp + ds.length - 1
  if exp ≤ 0 && -6 ≤ leading then String.ofList (withPoint ds (-exp).toNat)
  else
    let mantissa := withPoint ds (ds.length - 1)
    let sign := if leading < 0 then '-' else '+'
    String.ofList (mantissa ++ 'E' :: sign :: digits leading.natAbs)

end Lending.Decimal
