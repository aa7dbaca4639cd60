/-
  Lending.Decimal.Shortest — the shortest decimal that reads back as a binary64 number.

  The decimals that round to `m · 2 ^ e` form an interval around it, its ends included
  exactly if `m` is even. On the grid of `n` digits the value has two neighbours; the first
  grid with a neighbour in the interval gives the answer, and of two neighbours the nearer.
  `text` writes that decimal.
-/
import Lending.Decimal.Binary64
import Lending.Decimal.Notation

namespace Lending.Binary64

/-- The interval around a number in quarters of its last place: its two ends. -/
def quarters (b : Binary64) : Nat × Nat :=
  let m := b.mantissa
  let below := if m = leadingBit && -1074 < b.exponent then 1 else 2
  (4 * m - below, 4 * m + 2)

/-- Whether `n · 10 ^ e` rounds to a positive number. -/
def isNear (b : Binary64) (n : Nat) (e : Int) : Bool :=
  let quarter := b.exponent - 2
  let size := n * tens e * twos (-quarter)
  let unit := tens (-e) * twos quarter
  let ends := b.quarters
  if b.mantissa % 2 = 0 then ends.1 * unit ≤ size && size ≤ ends.2 * unit
  else ends.1 * unit < size && size < ends.2 * unit

/-- The neighbour of `num / den` on the grid of `10 ^ e` that reads back, the nearer of two. -/
def neighbour? (b : Binary64) (num den : Nat) (e : Int) : Option Decimal :=
  let n := num * tens (-e)
  let d := den * tens e
  let lower := n / d
  let nearer := Rounding.halfEven.quotient n d
  let farther := if nearer = lower then lower + 1 else lower
  if b.isNear nearer e then some (Decimal.normal false nearer e)
  else if b.isNear farther e then some (Decimal.normal false farther e)
  else none

/-- The shortest decimal of a finite number that is not negative; 17 digits always do. -/
def shortest (b : Binary64) : Decimal :=
  if b.mantissa = 0 then 0
  else
    let num := b.mantissa * twos b.exponent
    let den := twos (-b.exponent)
    let top := Decimal.quotientAdjusted num den
    ((List.range 17).findSome? fun (n : Nat) => b.neighbour? num den (top - n)).getD 0

/-! ## Text -/

/-- The text of a very large or small number: one digit before the point, and an exponent of
    at least two digits. -/
def exponentText (x : Decimal) : List Char :=
  let ds := Decimal.digits x.coeff
  let power := Decimal.digits x.adjusted.natAbs
  let sign := if x.adjusted < 0 then '-' else '+'
  Decimal.withPoint ds (ds.length - 1) ++ 'e' :: sign :: List.replicate (2 - power.length) '0'
    ++ power

/-- The text of a number of moderate size, with a digit after the point. -/
def positionalText (x : Decimal) : List Char :=
  if x.exp < 0 then Decimal.withPoint (Decimal.digits x.coeff) (-x.exp).toNat
  else Decimal.digits x.coeff ++ List.replicate x.exp.toNat '0' ++ ['.', '0']

/-- The text of a number: positional if its leading digit stands at most 4 places after the
    point or 16 before it. -/
def text (b : Binary64) : String :=
  let size := b.bits.toNat % signBit
  let x := b.shortest
  let body :=
    if infinityBits = size then ['i', 'n', 'f']
    else if -4 ≤ x.adjusted && x.adjusted < 16 then positionalText x
    else exponentText x
  if infinityBits < size then "nan"
  else String.ofList (if signBit ≤ b.bits.toNat then '-' :: body else body)

end Lending.Binary64
