/-
  Lending.Proofs.Decimal.Overflow — figures that only an overflow can keep from being given.

  An arithmetic operation fails by overflow, a division besides by a divisor of value zero.
  `OverflowOnly` says of a computation that no other fault ends it; it is kept by doing one
  such computation after another (`bind`), so it is read off step by step.
-/
import Lending.Proofs.Decimal.Arithmetic
import Lending.Proofs.Outcome

namespace Lending

namespace Outcome

def OverflowOnly (o : Outcome α) : Prop := ∀ f, o = .error f → f = .overflow

theorem OverflowOnly.ok (a : α) : OverflowOnly (.ok a) := by
  intro f h
  cases h

theorem OverflowOnly.pure (a : α) : OverflowOnly (pure a) := OverflowOnly.ok a

theorem OverflowOnly.of_eq {o : Outcome α} {a : α} (h : o = .ok a) : o.OverflowOnly :=
  h ▸ OverflowOnly.ok a

theorem OverflowOnly.bind {o : Outcome α} {next : α → Outcome β} (ho : o.OverflowOnly)
    (hn : ∀ a, o = .ok a → (next a).OverflowOnly) : (o >>= next).OverflowOnly :=
  FaultsIn.bind ho hn

theorem mapM_overflowOnly {f : α → Outcome β} {l : List α} (h : ∀ a ∈ l, (f a).OverflowOnly) :
    (l.mapM f).OverflowOnly := mapM_faultsIn h

theorem OverflowOnly.faultsIn {P : Fault → Prop} {o : Outcome α} (h : o.OverflowOnly)
    (overflow : P .overflow) : o.FaultsIn P := fun f failed => h f failed ▸ overflow

end Outcome

open Outcome Truncation

theorem round_overflowOnly (c : Context) (neg : Bool) (num den : Nat) (exp : ℤ) :
    (c.round neg num den exp).OverflowOnly := fun _ h => round_error h

theorem add_overflowOnly (x y : Decimal) : (x + y : Outcome Decimal).OverflowOnly := by
  show (money.add x y).OverflowOnly
  unfold Context.add
  repeat' split
  · exact .ok _
  all_goals exact round_overflowOnly _ _ _ _ _

theorem sub_overflowOnly (x y : Decimal) : (x - y : Outcome Decimal).OverflowOnly :=
  add_overflowOnly x y.flip

theorem negated_overflowOnly (x : Decimal) : x.negated.OverflowOnly := sub_overflowOnly 0 x

theorem mul_overflowOnly (x y : Decimal) : (x * y : Outcome Decimal).OverflowOnly :=
  round_overflowOnly _ _ _ _ _

theorem div_overflowOnly (x : Decimal) {y : Decimal} (h : y.toRat ≠ 0) :
    (x / y : Outcome Decimal).OverflowOnly := by
  show (money.div x y).OverflowOnly
  unfold Context.div
  split
  · exact absurd ((Decimal.isZero_iff y).mp ‹_›) h
  · exact round_overflowOnly _ _ _ _ _

/-- A division by anything. -/
theorem div_faults (x y : Decimal) : (x / y : Outcome Decimal).FaultsIn fun f =>
    f = .overflow ∨ f = .divisionByZero ∨ f = .invalidOperation := by
  by_cases zero : y.isZero
  · intro f h
    change money.div x y = .error f at h
    unfold Context.div at h
    rw [if_pos zero] at h
    split at h <;> cases h
    · exact .inr (.inr rfl)
    · exact .inr (.inl rfl)
  · exact (div_overflowOnly x (mt (Decimal.isZero_iff y).mpr zero)).faultsIn (.inl rfl)

theorem ratioOrZero_overflowOnly (x y : Decimal) : (Decimal.ratioOrZero x y).OverflowOnly := by
  unfold Decimal.ratioOrZero
  split
  · exact .pure _
  · rename_i nonzero
    rw [Decimal.isZero_iff] at nonzero
    exact div_overflowOnly x nonzero

theorem powerOfTen_overflowOnly (n : ℤ) : (Decimal.powerOfTen n).OverflowOnly :=
  round_overflowOnly _ _ _ _ _

theorem shareOf_overflowOnly (n : ℤ) {whole : ℤ} (h : whole ≠ 0) :
    (Decimal.ofInt n / Decimal.ofInt whole : Outcome Decimal).OverflowOnly := by
  refine div_overflowOnly _ ?_
  rw [Decimal.toRat_ofInt]
  exact_mod_cast h

end Lending
