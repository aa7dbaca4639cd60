/-
  Lending.Proofs.Decimal.SameValue — computations that give numbers of the same value.

  Zero can be written with either sign, and no figure depends on which. `SameValue` says of two
  computations that they give numbers of one value or end with the same fault. It is kept by doing
  such computations one after the other (`SameValue.bind`) and by each operation on numbers that
  operations gave (`add_sameValue`, `sub_sameValue`, `mul_sameValue`, `div_sameValue`).
-/
import Lending.Proofs.Decimal.Normal

namespace Lending

namespace Outcome

def SameValue (o o' : Outcome Decimal) : Prop := Decimal.toRat <$> o = Decimal.toRat <$> o'

def GiveSame (o o' : Outcome Decimal) : Prop :=
  ∃ x x', o = .ok x ∧ o' = .ok x' ∧ x.toRat = x'.toRat

namespace SameValue

variable {o o' o'' : Outcome Decimal}

theorem refl (o : Outcome Decimal) : SameValue o o := rfl

theorem symm (same : SameValue o o') : SameValue o' o := Eq.symm same

theorem trans (same : SameValue o o') (next : SameValue o' o'') : SameValue o o'' :=
  Eq.trans same next

theorem ok {x x' : Decimal} (same : x.toRat = x'.toRat) : SameValue (.ok x) (.ok x') :=
  congrArg Except.ok same

theorem giveSame (same : SameValue o o') {x : Decimal} (given : o = .ok x) : GiveSame o o' := by
  obtain ⟨x', given', value⟩ := map_eq_ok_iff.mp (same.symm.trans (congrArg _ given))
  exact ⟨x, x', given, given', value.symm⟩

theorem bind (same : SameValue o o') {next next' : Decimal → Outcome Decimal}
    (later : ∀ x x', o = .ok x → o' = .ok x' → x.toRat = x'.toRat →
      SameValue (next x) (next' x')) : SameValue (o >>= next) (o' >>= next') := by
  cases o with
  | error fault =>
    cases o' with
    | error fault' =>
      cases same
      exact refl _
    | ok x' => cases same
  | ok x =>
    cases o' with
    | error fault' => cases same
    | ok x' => exact later x x' rfl rfl (Except.ok.inj same)

/-- After a step that both make. -/
theorem bind_same {first : Outcome α} {next next' : α → Outcome Decimal}
    (later : ∀ a, first = .ok a → SameValue (next a) (next' a)) :
    SameValue (first >>= next) (first >>= next') := by
  cases first with
  | error fault => exact refl _
  | ok a => exact later a rfl

/-- Computations that only an overflow can end, one of which gives a value if the other does. -/
theorem of_overflowOnly (only : o.OverflowOnly) (only' : o'.OverflowOnly)
    (forth : ∀ x, o = .ok x → ∃ x', o' = .ok x' ∧ x.toRat = x'.toRat)
    (back : ∀ x', o' = .ok x' → ∃ x, o = .ok x ∧ x'.toRat = x.toRat) : SameValue o o' := by
  cases o with
  | ok x =>
    obtain ⟨x', rfl, value⟩ := forth x rfl
    exact ok value
  | error fault =>
    cases o' with
    | ok x' =>
      obtain ⟨x, given, -⟩ := back x' rfl
      cases given
    | error fault' =>
      rw [only fault rfl, only' fault' rfl]
      exact refl _

end SameValue

end Outcome

open Outcome

/-! ## Operations -/

section
variable {x x' y y' : Decimal} (same_left : x.toRat = x'.toRat) (same_right : y.toRat = y'.toRat)
include same_left same_right

theorem add_sameValue (left : |x.toRat| < Decimal.limit) (right : |y.toRat| < Decimal.limit) :
    SameValue (x + y) (x' + y') :=
  .of_overflowOnly (add_overflowOnly _ _) (add_overflowOnly _ _)
    (fun _ => exists_add_congr same_left same_right left right)
    (fun _ => exists_add_congr same_left.symm same_right.symm (same_left ▸ left)
      (same_right ▸ right))

theorem sub_sameValue (left : |x.toRat| < Decimal.limit) (right : |y.toRat| < Decimal.limit) :
    SameValue (x - y) (x' - y') :=
  .of_overflowOnly (sub_overflowOnly _ _) (sub_overflowOnly _ _)
    (fun _ => exists_sub_congr same_left same_right left right)
    (fun _ => exists_sub_congr same_left.symm same_right.symm (same_left ▸ left)
      (same_right ▸ right))

theorem mul_sameValue : SameValue (x * y) (x' * y') :=
  .of_overflowOnly (mul_overflowOnly _ _) (mul_overflowOnly _ _)
    (fun _ => exists_mul_congr same_left same_right)
    (fun _ => exists_mul_congr same_left.symm same_right.symm)

/-- A divisor of value zero is refused alike as well. -/
theorem div_sameValue : SameValue (x / y) (x' / y') := by
  by_cases zero : y.toRat = 0
  · show SameValue (money.div x y) (money.div x' y')
    unfold Context.div
    rw [if_pos ((Decimal.isZero_iff y).mpr zero),
      if_pos ((Decimal.isZero_iff y').mpr (same_right ▸ zero)), Decimal.isZero_congr same_left]
    exact .refl _
  · exact .of_overflowOnly (div_overflowOnly _ zero) (div_overflowOnly _ (same_right ▸ zero))
      (fun _ => exists_div_congr same_left same_right)
      (fun _ => exists_div_congr same_left.symm same_right.symm)

end

end Lending
