/-
  Lending.Decimal.Basic — exact decimal numbers.

  A number is `±coeff · 10 ^ exp`. Numbers are kept in normal form (`normal`): a nonzero
  coefficient does not end in the digit 0, and zero has exponent 0. Dropping those zeros
  loses nothing (`stripZeros_value`). So two numbers of one value differ at most in the sign
  of zero, which only the cells of a table can show. Order and choice of the smaller or
  larger go by value and never round; of two numbers of one value, `min` and `max` give the
  first.
-/

namespace Lending

/-- `10 ^ e` for an exponent that is not negative, else 1. -/
def tens (e : Int) : Nat := Nat.pow 10 e.toNat

/-- `2 ^ e` for an exponent that is not negative, else 1. -/
def twos (e : Int) : Nat := Nat.pow 2 e.toNat

theorem tens_add {a b : Int} (ha : 0 ≤ a) (hb : 0 ≤ b) : tens (a + b) = tens a * tens b := by
  simp [tens, Int.toNat_add ha hb, Nat.pow_add]

structure Decimal where
  neg : Bool
  coeff : Nat
  exp : Int
  deriving DecidableEq, Repr

namespace Decimal

/-! ## Digits -/

/-- Digits of `n`, counted one by one up to the given bound. -/
def countDigits : Nat → Nat → Nat
  | 0, _ => 0
  | bound + 1, n => if n = 0 then 0 else countDigits bound (n / 10) + 1

/-- The number of decimal digits of `n`; zero has none. The leading ones are skipped at once:
    since `10 ^ 3010 ≤ 2 ^ 10000`, a number has more digits than 3010 / 10000 of its
    binary length. -/
def digitCount (n : Nat) : Nat :=
  let skipped := n.log2 * 3010 / 10000
  skipped + countDigits (n.log2 + 1) (n / tens skipped)

/-- Moves zeros at the end of the coefficient into the exponent: all of them if there are
    fewer than `2 ^ k`, by halves. -/
def stripZeros : Nat → Nat → Int → Nat × Int
  | 0, c, e => (c, e)
  | k + 1, c, e =>
    let half := twos k
    if c % tens half = 0 then stripZeros k (c / tens half) (e + half) else stripZeros k c e

/-- No digit is lost. -/
theorem stripZeros_value (k c : Nat) (e : Int) :
    e ≤ (stripZeros k c e).2 ∧
      (stripZeros k c e).1 * tens ((stripZeros k c e).2 - e) = c := by
  induction k generalizing c e with
  | zero => simp [stripZeros, tens]
  | succ k ih =>
    simp only [stripZeros]
    split
    · rename_i divides
      obtain ⟨above, value⟩ := ih (c / tens (twos k)) (e + twos k)
      refine ⟨by omega, ?_⟩
      generalize stripZeros k (c / tens (twos k)) (e + twos k) = s at above value ⊢
      rw [show s.2 - e = (s.2 - (e + twos k)) + twos k by omega,
        tens_add (by omega) (by omega), ← Nat.mul_assoc, value]
      exact Nat.div_mul_cancel (Nat.dvd_of_mod_eq_zero divides)
    · exact ih c e

/-! ## Numbers -/

def zero : Decimal := ⟨false, 0, 0⟩

/-- The normal form of `±coeff · 10 ^ exp`. -/
def normal (neg : Bool) (coeff : Nat) (exp : Int) : Decimal :=
  if coeff = 0 then ⟨neg, 0, 0⟩
  else
    let stripped := stripZeros ((digitCount coeff).log2 + 1) coeff exp
    ⟨neg, stripped.1, stripped.2⟩

def ofInt (n : Int) : Decimal := normal (n < 0) n.natAbs 0

instance : OfNat Decimal n := ⟨ofInt n⟩

instance : IntCast Decimal := ⟨ofInt⟩

instance : Inhabited Decimal := ⟨zero⟩

def isZero (x : Decimal) : Bool := x.coeff == 0

/-- The number with the other sign, zero included. -/
def flip (x : Decimal) : Decimal := { x with neg := !x.neg }

/-- The exponent of the leading digit of a nonzero number. -/
def adjusted (x : Decimal) : Int := x.exp + digitCount x.coeff - 1

/-- The number in units of `10 ^ e`, for `e` at most its exponent. -/
def inUnits (x : Decimal) (e : Int) : Int :=
  let size : Int := (x.coeff * tens (x.exp - e) : Nat)
  if x.neg then -size else size

/-- The value of a number. -/
def toRat (x : Decimal) : Rat :=
  let e := min x.exp 0
  mkRat (x.inUnits e) (tens (-e))

/-! ## Order -/

/-- `-1`, `0` or `1`. -/
def sign (x : Decimal) : Int := if x.coeff = 0 then 0 else if x.neg then -1 else 1

/-- Compares two nonzero numbers without their signs: by the place of the leading digit,
    then by the digits. -/
def compareSize (x y : Decimal) : Ordering :=
  if x.adjusted = y.adjusted then
    let e := min x.exp y.exp
    compare (x.coeff * tens (x.exp - e)) (y.coeff * tens (y.exp - e))
  else compare x.adjusted y.adjusted

protected def compare (x y : Decimal) : Ordering :=
  if x.sign = y.sign then
    if x.sign = 0 then .eq
    else if x.sign = 1 then compareSize x y
    else compareSize y x
  else compare x.sign y.sign

instance : LT Decimal := ⟨fun x y => x.compare y = .lt⟩

instance : LE Decimal := ⟨fun x y => x.compare y ≠ .gt⟩

instance (x y : Decimal) : Decidable (x < y) := inferInstanceAs (Decidable (x.compare y = .lt))

instance (x y : Decimal) : Decidable (x ≤ y) := inferInstanceAs (Decidable (x.compare y ≠ .gt))

instance : Min Decimal := ⟨fun x y => if y < x then y else x⟩

instance : Max Decimal := ⟨fun x y => if x < y then y else x⟩

/-- Whether two numbers have one value. -/
def sameValue (x y : Decimal) : Bool := x.compare y == .eq

end Decimal

end Lending
