/-
  Lending.Decimal.Rounding — the one place where numbers are rounded.

  A context allows a number of digits and limits the exponent of the leading digit. `round`
  brings the exact value `±num / den · 10 ^ exp` onto the context's grid: the multiples of
  `10 ^ g`, where `g` leaves as many digits as the context allows and is never below its
  least exponent. A value that would need a larger exponent is an overflow; one that is
  small against the least exponent becomes zero.

  `towardZero_quotient_eq_iff` and `halfEven_quotient_near` say what the two ways of rounding
  do to a quotient.
-/
import Lending.Decimal.Basic
import Lending.Fault

namespace Lending

/-- What becomes of a value between two points of the grid. -/
inductive Rounding where
  | towardZero
  /-- To the nearer point, from the middle to the even one. -/
  | halfEven
  deriving DecidableEq, Repr

/-- `num / den` as a whole number. -/
def Rounding.quotient (r : Rounding) (num den : Nat) : Nat :=
  match r with
  | .towardZero => num / den
  | .halfEven =>
    let q := num / den
    match compare (2 * (num % den)) den with
    | .lt => q
    | .eq => q + q % 2
    | .gt => q + 1

namespace Rounding

/-- Toward zero: the largest whole number that is not above. -/
theorem towardZero_quotient_eq_iff {num den q : Nat} (positive : 0 < den) :
    towardZero.quotient num den = q ↔ q * den ≤ num ∧ num < (q + 1) * den := by
  show num / den = q ↔ _
  rw [Nat.div_eq_iff positive, Nat.succ_mul]
  omega

/-- To the nearer: never off by more than a half. -/
theorem halfEven_quotient_near (num : Nat) {den : Nat} (positive : 0 < den) :
    2 * num ≤ 2 * (halfEven.quotient num den * den) + den ∧
      2 * (halfEven.quotient num den * den) ≤ 2 * num + den := by
  have whole := Nat.div_add_mod num den
  rw [Nat.mul_comm] at whole
  simp only [quotient]
  split
  · have low := Nat.compare_eq_lt.mp ‹_›
    omega
  · have middle := Nat.compare_eq_eq.mp ‹_›
    rw [Nat.add_mul]
    rcases Nat.mod_two_eq_zero_or_one (num / den) with even | odd <;> simp only [*] <;> omega
  · have high := Nat.compare_eq_gt.mp ‹_›
    rw [Nat.add_mul]
    have below := Nat.mod_lt num positive
    omega

end Rounding

structure Context where
  precision : Nat
  rounding : Rounding
  /-- The exponent of a leading digit is at most this, either way. -/
  maxExponent : Nat
  deriving DecidableEq, Repr

/-- The exponent of the leading digit of `num / den`, both positive. -/
def Decimal.quotientAdjusted (num den : Nat) : Int :=
  let k : Int := (digitCount num : Int) - digitCount den
  if den * tens k ≤ num * tens (-k) then k else k - 1

namespace Context

/-- The exponent of the finest grid. -/
def leastExponent (c : Context) : Int := -(c.maxExponent : Int) - (c.precision - 1)

/-- The exponent of the grid for values whose leading digit has exponent `top`. -/
def gridExponent (c : Context) (top : Int) : Int := max (top - (c.precision - 1)) c.leastExponent

/-- The context's number for `±num / den · 10 ^ exp`, `den` positive. -/
def round (c : Context) (neg : Bool) (num den : Nat) (exp : Int) : Outcome Decimal :=
  if num = 0 then .ok ⟨neg, 0, 0⟩
  else
    let top := Decimal.quotientAdjusted num den + exp
    let grid := c.gridExponent top
    if c.maxExponent < top then .error .overflow
    else if top + 1 < grid then .ok ⟨neg, 0, 0⟩
    else
      let shift := exp - grid
      let q := c.rounding.quotient (num * tens shift) (den * tens (-shift))
      let result := Decimal.normal neg q grid
      if c.maxExponent < result.adjusted then .error .overflow else .ok result

/-- A number brought onto the context's grid. -/
def roundDecimal (c : Context) (x : Decimal) : Outcome Decimal := c.round x.neg x.coeff 1 x.exp

end Context

end Lending
