/-
  Lending.Proofs.Decimal.Special — how arithmetic beyond the finite numbers ends.

  Two faults end an operation: an overflow of finite operands, and operands that leave it without
  a result (the `_faultsIn` lemmas). What is put above zero or divided by such a figure is not
  negative, though it may be infinite (`unsigned_positiveOrZero`, `unsigned_ratioOrZero`). What is
  no number stays so until it is compared with zero, and is refused there
  (`positiveOrZero_of_isNaN`).
-/
import Lending.Decimal.Special
import Lending.Proofs.Decimal.Overflow
import Lending.Proofs.Decimal.Arithmetic

namespace Lending

open Outcome Truncation

def Fault.OfArithmetic (fault : Fault) : Prop := fault = .overflow ∨ fault = .invalidOperation

theorem Outcome.OverflowOnly.ofArithmetic {o : Outcome α} (h : o.OverflowOnly) :
    o.FaultsIn Fault.OfArithmetic := h.faultsIn (.inl rfl)

theorem invalid_ofArithmetic :
    Outcome.FaultsIn Fault.OfArithmetic (.error .invalidOperation : Outcome α) := by
  rintro fault ⟨⟩
  exact .inr rfl

namespace Literal

def IsFinite : Literal → Prop
  | finite _ => True
  | _ => False

def Unsigned : Literal → Prop
  | finite x => 0 ≤ x.toRat
  | infinite neg => neg = false
  | _ => False

/-! ## Faults -/

theorem ofNumbers_faultsIn {x y : Literal} {result : Outcome Literal}
    (h : result.FaultsIn Fault.OfArithmetic) :
    (ofNumbers x y result).FaultsIn Fault.OfArithmetic := by
  unfold ofNumbers
  split
  · exact invalid_ofArithmetic
  · split
    · exact .pure _
    · exact h

theorem add_faultsIn (x y : Literal) :
    (x + y : Outcome Literal).FaultsIn Fault.OfArithmetic := by
  show (x.add y).FaultsIn _
  unfold Literal.add
  split
  · exact (add_overflowOnly _ _).ofArithmetic.map _
  · refine ofNumbers_faultsIn ?_
    split
    · split
      · exact .pure _
      · exact invalid_ofArithmetic
    · exact .pure _
    · exact .pure _

theorem sub_faultsIn (x y : Literal) :
    (x - y : Outcome Literal).FaultsIn Fault.OfArithmetic := add_faultsIn x y.flip

theorem mul_faultsIn (x y : Literal) :
    (x * y : Outcome Literal).FaultsIn Fault.OfArithmetic := by
  show (x.mul y).FaultsIn _
  unfold Literal.mul
  split
  · exact (mul_overflowOnly _ _).ofArithmetic.map _
  · refine ofNumbers_faultsIn ?_
    split
    · exact invalid_ofArithmetic
    · exact .pure _

theorem div_faultsIn (x : Literal) {y : Literal} (nonzero : ¬ y.isZero) :
    (x / y : Outcome Literal).FaultsIn Fault.OfArithmetic := by
  show (x.div y).FaultsIn _
  unfold Literal.div
  split
  · exact (div_overflowOnly _ (mt (Decimal.isZero_iff _).mpr nonzero)).ofArithmetic.map _
  · refine ofNumbers_faultsIn ?_
    split
    · exact invalid_ofArithmetic
    · exact .pure _
    · exact .pure _

theorem ratioOrZero_faultsIn (x y : Literal) :
    (ratioOrZero x y).FaultsIn Fault.OfArithmetic := by
  unfold ratioOrZero
  split
  · exact .pure _
  · exact div_faultsIn x ‹_›

theorem positiveOrZero_faultsIn (x : Literal) :
    x.positiveOrZero.FaultsIn Fault.OfArithmetic := by
  unfold positiveOrZero
  split
  · exact .pure _
  · exact .pure _
  · exact invalid_ofArithmetic

/-! ## Signs -/

theorem unsigned_zero : (finite 0).Unsigned := Decimal.toRat_zero.ge

theorem unsigned_positiveOrZero {x y : Literal} (h : x.positiveOrZero = .ok y) : y.Unsigned := by
  unfold positiveOrZero at h
  split at h
  · cases h
    show 0 ≤ (Decimal.positiveOrZero _).toRat
    rw [Decimal.toRat_positiveOrZero]
    exact le_max_right _ _
  · cases h
    split
    · exact unsigned_zero
    · rfl
  · cases h

theorem unsigned_ratioOrZero {x y ratio : Literal} (hx : x.Unsigned) (hy : y.Unsigned)
    (h : ratioOrZero x y = .ok ratio) : ratio.Unsigned := by
  unfold ratioOrZero at h
  split at h
  · cases h
    exact unsigned_zero
  rename_i nonzero
  cases x with
  | finite x =>
    cases y with
    | finite y =>
      obtain ⟨z, quotient, rfl⟩ := map_eq_ok_iff.mp h
      show 0 ≤ z.toRat
      rw [(div_value quotient).2]
      exact truncate_nonneg (div_nonneg hx hy)
    | infinite neg =>
      cases h
      exact (Decimal.toRat_of_isZero _ _).ge
    | notANumber => exact hy.elim
    | signaling => exact hy.elim
  | infinite neg =>
    obtain rfl : neg = false := hx
    cases y with
    | finite y =>
      cases h
      show (false != y.neg) = false
      have positive : 0 < y.toRat :=
        lt_of_le_of_ne hy (Ne.symm (mt (Decimal.isZero_iff y).mpr nonzero))
      cases sign : y.neg with
      | false => rfl
      | true =>
        have size : (0 : ℚ) ≤ y.coeff * 10 ^ y.exp := by positivity
        rw [Decimal.toRat_eq, sign, Decimal.unit_true] at positive
        linarith
    | infinite neg => cases h
    | notANumber => exact hy.elim
    | signaling => exact hy.elim
  | notANumber => exact hx.elim
  | signaling => exact hx.elim

/-! ## No numbers -/

def IsNaN (x : Literal) : Prop := x = notANumber ∨ x = signaling

@[simp] theorem isNaN_notANumber : notANumber.IsNaN := .inl rfl

@[simp] theorem isNaN_signaling : signaling.IsNaN := .inr rfl

section
variable {x y z : Literal}

theorem isNaN_of_ofNumbers {result : Outcome Literal} (none : x.IsNaN ∨ y.IsNaN)
    (h : ofNumbers x y result = .ok z) : z.IsNaN := by
  unfold ofNumbers at h
  split at h
  · cases h
  rename_i silent
  split at h
  · cases h
    exact .inl rfl
  rename_i numbers
  unfold IsNaN at none
  tauto

theorem isNaN_of_add (none : y.IsNaN) (h : (x + y : Outcome Literal) = .ok z) : z.IsNaN := by
  change x.add y = .ok z at h
  rcases none with rfl | rfl <;> cases x <;> exact isNaN_of_ofNumbers (.inr (by simp)) h

theorem isNaN_of_mul (none : x.IsNaN) (h : (x * y : Outcome Literal) = .ok z) : z.IsNaN := by
  change x.mul y = .ok z at h
  rcases none with rfl | rfl <;> exact isNaN_of_ofNumbers (.inl (by simp)) h

theorem isNaN_of_div (none : x.IsNaN) (h : (x / y : Outcome Literal) = .ok z) : z.IsNaN := by
  change x.div y = .ok z at h
  rcases none with rfl | rfl <;> exact isNaN_of_ofNumbers (.inl (by simp)) h

theorem isNaN_of_negated (none : x.IsNaN) (h : x.negated = .ok z) : z.IsNaN := by
  have flipped : x.flip.IsNaN := by rcases none with rfl | rfl <;> simp [flip]
  exact isNaN_of_add flipped (x := finite 0) h

/-- What is no number cannot be put above zero. -/
theorem positiveOrZero_of_isNaN (none : x.IsNaN) :
    x.positiveOrZero = .error .invalidOperation := by
  rcases none with rfl | rfl <;> rfl

end

end Literal

end Lending
