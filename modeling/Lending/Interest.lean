/-
  Lending.Interest — how a yearly rate grows a debt.

  A rate is charged slot by slot. `growthFactor` is what the on-chain program multiplies a
  debt by: the exact power for up to four slots, and for more the expansion of
  `(1 + base) ^ n` up to its cubic term. `yearlyYield` compounds over all slots of a year.
-/
import Lending.Decimal.Arithmetic
import Lending.Units

namespace Lending.Interest

/-- The rate per slot. -/
def ratePerSlot (rate : Decimal) : Outcome Decimal := rate / Decimal.ofInt slotsPerYear

/-- `1 + n · base + n (n - 1) / 2 · base² + n (n - 1) (n - 2) / 6 · base³`. -/
def cubicFactor (base : Decimal) (n : Int) : Outcome Decimal := do
  let exp := Decimal.ofInt n
  let expMinusOne := Decimal.ofInt (n - 1)
  let expMinusTwo := Decimal.ofInt (n - 2)
  let square ← base * base
  let cube ← square * base
  let first ← base * exp
  let second ← (← (← square * exp) * expMinusOne) / 2
  let third ← (← (← (← cube * exp) * expMinusOne) * expMinusTwo) / 6
  (← (← 1 + first) + second) + third

/-- What `n` slots at a yearly rate multiply a debt by. -/
def growthFactor (rate : Decimal) (n : Int) : Outcome Decimal := do
  let base ← ratePerSlot rate
  if n = 0 then pure 1
  else if n = 1 then base + 1
  else if n = 2 then
    let once ← base + 1
    once * once
  else if n = 3 then
    let once ← base + 1
    (← once * once) * once
  else if n = 4 then
    let once ← base + 1
    let twice ← once * once
    twice * twice
  else cubicFactor base n

/-- The yield of a year at a yearly rate that is compounded once per slot. -/
def yearlyYield (rate : Decimal) : Outcome Decimal := do
  let base ← 1 + (← ratePerSlot rate)
  (← money.power base slotsPerYear.toNat) - 1

end Lending.Interest
