/-
  Lending.Text.Integer — whole numbers written as text.

  White space around the number, one sign, then decimal digits of any script. Single
  underscores may stand between digits, leading zeros are allowed, and a text of more than
  4300 digits is refused. Nor is a number of more digits written.
-/
import Lending.Decimal.Basic
import Lending.Text.Blank
import Lending.Text.Digit

namespace Lending.Text

/-- The most digits a written whole number may have. -/
def maxIntegerDigits : Nat := 4300

/-- Whether a whole number is short enough to be written. -/
def isWritable (n : Int) : Bool := Decimal.digitCount n.natAbs ≤ maxIntegerDigits

/-- A number that is being read, as `high * scale + low`. Digits go into the low part, so that
    only every thousandth of them moves the long one. -/
structure SplitNumeral where
  high : Nat
  scale : Nat
  low : Nat

namespace SplitNumeral

def value (p : SplitNumeral) : Nat := p.high * p.scale + p.low

def addDigit (p : SplitNumeral) (d : Nat) : SplitNumeral :=
  if tens 1000 ≤ p.scale then ⟨p.value, 10, d⟩ else ⟨p.high, 10 * p.scale, 10 * p.low + d⟩

/-- Whichever part a digit goes into, it is the next one of the number. -/
theorem value_addDigit (p : SplitNumeral) (d : Nat) : (p.addDigit d).value = 10 * p.value + d := by
  unfold addDigit
  split
  · simp only [value, Nat.mul_comm]
  · simp only [value]
    rw [Nat.mul_add, Nat.mul_left_comm, Nat.add_assoc]

end SplitNumeral

/-- The number that a list of digits writes, highest first. -/
def ofDigits (digits : List Nat) : Nat := (digits.foldl SplitNumeral.addDigit ⟨0, 1, 0⟩).value

theorem ofDigits_eq_foldl (digits : List Nat) :
    ofDigits digits = digits.foldl (fun n d => 10 * n + d) 0 := by
  suffices ∀ p : SplitNumeral, (digits.foldl SplitNumeral.addDigit p).value =
      digits.foldl (fun n d => 10 * n + d) p.value from this ⟨0, 1, 0⟩
  induction digits with
  | nil => exact fun _ => rfl
  | cons d rest ih =>
    intro p
    rw [List.foldl_cons, List.foldl_cons, ih, p.value_addDigit]

/-- Splits a character list after an optional sign; the flag says that it was a minus. -/
def splitSign : List Char → Bool × List Char
  | '-' :: rest => (true, rest)
  | '+' :: rest => (false, rest)
  | cs => (false, cs)

/-- The digits of a nonempty run, in which single underscores stand between digits. -/
def groupedDigits? : List Char → Option (List Nat)
  | [] => none
  | [c] => (digitValue? c).map ([·])
  | c :: '_' :: rest => do
    let d ← digitValue? c
    let ds ← groupedDigits? rest
    pure (d :: ds)
  | c :: rest => do
    let d ← digitValue? c
    let ds ← groupedDigits? rest
    pure (d :: ds)

def integer? (text : String) : Option Int := do
  let kind := fun c => isBlank c && !isInformationSeparator c
  let (neg, run) := splitSign (trim kind text.toList)
  let digits ← groupedDigits? run
  if maxIntegerDigits < digits.length then none
  else
    let n : Int := ofDigits digits
    pure (if neg then -n else n)

end Lending.Text
