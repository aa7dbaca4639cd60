/-
  Lending.Decimal.Arithmetic — rounded arithmetic, and the context of all money figures.

  Each operation is exact and then rounded once. `+`, `-`, `*` and `/` on numbers are the
  operations of `money`: 40 digits, the rest cut off. A zero product or quotient has the
  sign the rule of signs gives it; a zero sum is negative only if both terms are.

  A sum is not worked out digit by digit if one term lies far below every digit that
  rounding looks at. `trace` then takes its place: any number of its sign below those
  digits rounds the same way, so terms of any size can be added.
-/
import Lending.Decimal.Rounding

namespace Lending

namespace Context

/-- The exponent below which nothing changes how `x` plus a small term is rounded: `x` is a
    multiple of this power of ten, and every grid the sum can fall on is. -/
def lastPlace (c : Context) (x : Decimal) : Int := min x.exp (x.adjusted - c.precision)

/-- `y` is smaller than a tenth of the last place of `x`. -/
def negligible (c : Context) (x y : Decimal) : Bool := y.adjusted < c.lastPlace x - 1

/-- A number of `y`'s sign that is negligible beside `x`. -/
def trace (c : Context) (x y : Decimal) : Decimal := ⟨y.neg, 1, c.lastPlace x - 2⟩

/-- The sum of two numbers, worked out digit by digit. -/
def addDigits (c : Context) (x y : Decimal) : Outcome Decimal :=
  let e := min x.exp y.exp
  let s := x.inUnits e + y.inUnits e
  c.round (s < 0) s.natAbs 1 e

def add (c : Context) (x y : Decimal) : Outcome Decimal :=
  if x.isZero && y.isZero then .ok ⟨x.neg && y.neg, 0, 0⟩
  else if x.isZero then c.roundDecimal y
  else if y.isZero then c.roundDecimal x
  else if c.negligible x y then c.addDigits x (c.trace x y)
  else if c.negligible y x then c.addDigits (c.trace y x) y
  else c.addDigits x y

def sub (c : Context) (x y : Decimal) : Outcome Decimal := c.add x y.flip

/-- The opposite of a number, as zero minus it: never a negative zero. -/
def negate (c : Context) (x : Decimal) : Outcome Decimal := c.sub 0 x

def mul (c : Context) (x y : Decimal) : Outcome Decimal :=
  c.round (x.neg != y.neg) (x.coeff * y.coeff) 1 (x.exp + y.exp)

def div (c : Context) (x y : Decimal) : Outcome Decimal :=
  if y.isZero then .error (if x.isZero then .invalidOperation else .divisionByZero)
  else c.round (x.neg != y.neg) x.coeff y.coeff (x.exp - y.exp)

/-! ## Powers -/

/-- The binary digits of `n` after the leading one, from the highest. -/
def lowerBits (n : Nat) : List Bool := (List.range n.log2).reverse.map n.testBit

/-- One step of a power: square, and multiply by the base where the exponent has a one. -/
def powerStep (c : Context) (base r : Decimal) (bit : Bool) : Outcome Decimal := do
  let square ← c.mul r r
  if bit then c.mul square base else pure square

/-- `base ^ n` by repeated squaring from the highest bit of `n`, every product rounded. -/
def powerBySquaring (c : Context) (base : Decimal) (n : Nat) : Outcome Decimal :=
  if n = 0 then pure 1 else (lowerBits n).foldlM (c.powerStep base) base

/-- The context powers are worked out in: a few digits more, and ties to the even digit. -/
def forPower (c : Context) (n : Nat) : Context :=
  { c with precision := c.precision + Decimal.digitCount n + 2, rounding := .halfEven }

def power (c : Context) (base : Decimal) (n : Nat) : Outcome Decimal := do
  c.roundDecimal (← (c.forPower n).powerBySquaring base n)

end Context

/-! ## Money -/

/-- All figures of the library: 40 digits, truncated. -/
def money : Context := ⟨40, .towardZero, 999999⟩

/-- Figures worked out outside a money calculation: 28 digits, ties to the even digit. -/
def plainContext : Context := ⟨28, .halfEven, 999999⟩

namespace Decimal

@[default_instance] instance : HAdd Decimal Decimal (Outcome Decimal) := ⟨money.add⟩

@[default_instance] instance : HSub Decimal Decimal (Outcome Decimal) := ⟨money.sub⟩

@[default_instance] instance : HMul Decimal Decimal (Outcome Decimal) := ⟨money.mul⟩

@[default_instance] instance : HDiv Decimal Decimal (Outcome Decimal) := ⟨money.div⟩

/-- The opposite of an amount. -/
def negated (x : Decimal) : Outcome Decimal := money.negate x

/-- `10 ^ n` as an amount. -/
def powerOfTen (n : Int) : Outcome Decimal := money.round false 1 1 n

/-- `numerator / denominator`, or 0 if the denominator is 0. -/
def ratioOrZero (numerator denominator : Decimal) : Outcome Decimal :=
  if denominator.isZero then pure 0 else numerator / denominator

/-- A value, or 0 if it is negative. -/
def positiveOrZero (x : Decimal) : Decimal := max x 0

end Decimal

end Lending
