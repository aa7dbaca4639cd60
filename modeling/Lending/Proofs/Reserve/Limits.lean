/-
  Lending.Proofs.Reserve.Limits — what a pool lets out of an amount.

  A cap lets out what is left of its capacity (`withinOutflow_bounds`); a fee leaves no more
  than the amount, and nothing of what is not there (`netOfBorrowFee_le`). Of more, neither lets
  out less (`withinOutflow_mono`, `netOfBorrowFee_mono`). For every fee that is decoded, what is
  left of an amount is given (`exists_netOfBorrowFee`).
-/
import Lending.Proofs.Outcome
import Lending.Proofs.ScaledFraction
import Lending.Reserve.Pool

namespace Lending.Pool

open Outcome Truncation

/-- What a cap still lets out, as far as it holds anything back. -/
def capRemainder (p : Pool) (cap : OutflowCap) (slot : ℤ) : ℚ :=
  cap.capacity - (p.outflowAt cap slot).toRat

variable {p : Pool} {cap : OutflowCap} {amount y : Decimal} {slot : ℤ}

theorem withinOutflow_overflowOnly (p : Pool) (cap : OutflowCap) (amount : Decimal) (slot : ℤ) :
    (p.withinOutflow cap amount slot).OverflowOnly := by
  unfold withinOutflow
  dsimp only
  split
  · exact (sub_overflowOnly _ _).bind fun _ _ => .pure _
  · exact .pure _

theorem withinOutflow_value (h : p.withinOutflow cap amount slot = .ok y) :
    y.toRat = if 0 < cap.capacity then min amount.toRat (truncate (p.capRemainder cap slot))
      else amount.toRat := by
  unfold withinOutflow at h
  dsimp only at h
  have bounded : (0 : Decimal) < Decimal.ofInt cap.capacity ↔ 0 < cap.capacity := by
    rw [Decimal.lt_iff, Decimal.toRat_zero, Decimal.toRat_ofInt]
    exact Int.cast_pos
  split at h
  · rename_i limited
    obtain ⟨remaining, hremaining, h⟩ := bind_eq_ok_iff.mp h
    cases h
    rw [if_pos (bounded.mp limited), Decimal.toRat_min, sub_value hremaining, Decimal.toRat_ofInt]
    rfl
  · rename_i unlimited
    cases h
    rw [if_neg (mt bounded.mpr unlimited)]

theorem withinOutflow_bounds (h : p.withinOutflow cap amount slot = .ok y) :
    y.toRat ≤ amount.toRat ∧
      (0 < cap.capacity → y.toRat ≤ truncate (p.capRemainder cap slot)) := by
  rw [withinOutflow_value h]
  split
  · rename_i limited
    exact ⟨min_le_left _ _, fun _ => min_le_right _ _⟩
  · rename_i unlimited
    exact ⟨le_rfl, fun limited => absurd limited unlimited⟩

/-- An amount that the cap lets out is not cut. -/
theorem withinOutflow_eq (h : p.withinOutflow cap amount slot = .ok y)
    (exact : Representable amount.toRat)
    (fits : 0 < cap.capacity → amount.toRat ≤ p.capRemainder cap slot) :
    y.toRat = amount.toRat := by
  rw [withinOutflow_value h]
  split
  · rename_i limited
    exact min_eq_left (exact.le_truncate (fits limited))
  · rfl

theorem representable_withinOutflow (h : p.withinOutflow cap amount slot = .ok y)
    (exact : Representable amount.toRat) : Representable y.toRat := by
  rw [withinOutflow_value h]
  split
  · exact exact.min (representable_truncate _)
  · exact exact

theorem withinOutflow_mono {more y' : Decimal} (h : p.withinOutflow cap amount slot = .ok y)
    (h' : p.withinOutflow cap more slot = .ok y') (le : amount.toRat ≤ more.toRat) :
    y.toRat ≤ y'.toRat := by
  rw [withinOutflow_value h, withinOutflow_value h']
  split
  · exact min_le_min_right _ le
  · exact le

/-! ## Fees -/

def borrowFeeShare (p : Pool) : Outcome Decimal := do
  let fee ← p.borrowFee
  fee / (← fee + 1)

/-- One more than a fee may be cut, but not below 1 nor below the fee. -/
theorem le_one_more {fee more : Decimal} (rate : p.borrowFee = .ok fee)
    (h : (fee + 1 : Outcome Decimal) = .ok more) : 1 ≤ more.toRat ∧ fee.toRat ≤ more.toRat := by
  have nonneg := ScaledFraction.decode_nonneg rate
  rw [add_value h, Decimal.toRat_one]
  exact ⟨representable_one.le_truncate (by linarith),
    (ScaledFraction.representable_decode rate).le_truncate (by linarith)⟩

theorem borrowFeeShare_value {share : Decimal} (h : p.borrowFeeShare = .ok share) :
    0 ≤ share.toRat ∧ share.toRat ≤ 1 ∧
      ((∀ fee, p.borrowFee = .ok fee → fee.toRat = 0) → share.toRat = 0) := by
  obtain ⟨fee, fee_eq, h⟩ := bind_eq_ok_iff.mp h
  obtain ⟨more, more_eq, share_eq⟩ := bind_eq_ok_iff.mp h
  have fee_nonneg := ScaledFraction.decode_nonneg fee_eq
  have fee_le := (le_one_more fee_eq more_eq).2
  have quotient : 0 ≤ fee.toRat / more.toRat := div_nonneg fee_nonneg (fee_nonneg.trans fee_le)
  rw [(div_value share_eq).2]
  refine ⟨truncate_nonneg quotient, ?_, fun free => ?_⟩
  · exact (truncate_le quotient).trans (div_le_one_of_le₀ fee_le (fee_nonneg.trans fee_le))
  · rw [free fee fee_eq, zero_div, truncate_zero]

/-- There is a share for every fee, for one more than a fee is no overflow. -/
theorem exists_borrowFeeShare {fee : Decimal} (rate : p.borrowFee = .ok fee) :
    ∃ share, p.borrowFeeShare = .ok share := by
  have result := ScaledFraction.decode_result rate
  have nonneg := ScaledFraction.decode_nonneg rate
  have size := result.size
  rw [abs_of_nonneg nonneg] at size
  have room := Decimal.add_one_lt_limit result.exact size
  obtain ⟨more, more_eq⟩ : ∃ more, (fee + 1 : Outcome Decimal) = .ok more := by
    refine exists_add_of_sum result.size ?_ ?_
    · rw [Decimal.toRat_one, abs_one]
      linarith
    · rwa [Decimal.toRat_one, abs_of_nonneg (by linarith)]
  obtain ⟨share, share_eq⟩ := exists_div_of_one_le result.size (le_one_more rate more_eq).1
  exact ⟨share, bind_eq_ok_iff.mpr ⟨fee, rate, bind_eq_ok_iff.mpr ⟨more, more_eq, share_eq⟩⟩⟩

theorem netOfBorrowFee_eq_share (p : Pool) (amount : Decimal) : p.netOfBorrowFee amount =
    p.borrowFeeShare >>= fun share => amount * share >>= fun part => amount - part := by
  unfold netOfBorrowFee borrowFeeShare
  simp only [bind_assoc]

theorem netOfBorrowFee_value (h : p.netOfBorrowFee amount = .ok y) :
    ∃ share, p.borrowFeeShare = .ok share ∧
      y.toRat = truncate (amount.toRat - truncate (amount.toRat * share.toRat)) := by
  rw [netOfBorrowFee_eq_share] at h
  obtain ⟨share, share_eq, h⟩ := bind_eq_ok_iff.mp h
  obtain ⟨part, part_eq, h⟩ := bind_eq_ok_iff.mp h
  exact ⟨share, share_eq, by rw [sub_value h, mul_value part_eq]⟩

/-- What is left is given for every amount that is no overflow itself. -/
theorem exists_netOfBorrowFee {fee : Decimal} (rate : p.borrowFee = .ok fee)
    (nonneg : 0 ≤ amount.toRat) (small : amount.toRat < Decimal.limit) :
    ∃ y, p.netOfBorrowFee amount = .ok y := by
  obtain ⟨share, share_eq⟩ := exists_borrowFeeShare rate
  obtain ⟨share_nonneg, share_le, -⟩ := borrowFeeShare_value share_eq
  have product_nonneg := mul_nonneg nonneg share_nonneg
  obtain ⟨part, part_eq⟩ : ∃ part, (amount * share : Outcome Decimal) = .ok part := by
    refine exists_mul ?_
    rw [abs_of_nonneg product_nonneg]
    exact (mul_le_of_le_one_right nonneg share_le).trans_lt small
  have part_le := truncate_share_le nonneg share_nonneg share_le
  rw [← mul_value part_eq] at part_le
  have part_nonneg : 0 ≤ part.toRat := by
    rw [mul_value part_eq]
    exact truncate_nonneg product_nonneg
  obtain ⟨y, left⟩ := exists_sub_of_nonneg nonneg part_nonneg small (part_le.trans_lt small)
  rw [netOfBorrowFee_eq_share]
  exact ⟨y, bind_eq_ok_iff.mpr ⟨share, share_eq, bind_eq_ok_iff.mpr ⟨part, part_eq, left⟩⟩⟩

theorem netOfBorrowFee_nonneg (h : p.netOfBorrowFee amount = .ok y) (nonneg : 0 ≤ amount.toRat) :
    0 ≤ y.toRat := by
  obtain ⟨share, share_eq, value⟩ := netOfBorrowFee_value h
  obtain ⟨share_nonneg, share_le, -⟩ := borrowFeeShare_value share_eq
  rw [value]
  exact truncate_nonneg (sub_nonneg.mpr (truncate_share_le nonneg share_nonneg share_le))

theorem netOfBorrowFee_le (h : p.netOfBorrowFee amount = .ok y) :
    y.toRat ≤ max 0 amount.toRat := by
  obtain ⟨share, share_eq, value⟩ := netOfBorrowFee_value h
  obtain ⟨nonneg, le_one, -⟩ := borrowFeeShare_value share_eq
  rw [value]
  rcases le_total 0 amount.toRat with there | none
  · rw [max_eq_right there]
    have part := truncate_nonneg (mul_nonneg there nonneg)
    have part_le := truncate_share_le there nonneg le_one
    exact (truncate_le (sub_nonneg.mpr part_le)).trans (sub_le_self _ part)
  · rw [max_eq_left none]
    -- the fee on what is not there is not more than it
    have part : amount.toRat ≤ truncate (amount.toRat * share.toRat) := by
      refine le_trans ?_ (le_truncate_of_nonpos (mul_nonpos_of_nonpos_of_nonneg none nonneg)).1
      linarith [mul_le_mul_of_nonpos_left le_one none]
    exact (le_truncate_of_nonpos (sub_nonpos.mpr part)).2

/-- Without a fee nothing is taken off. -/
theorem netOfBorrowFee_eq (h : p.netOfBorrowFee amount = .ok y)
    (free : ∀ fee, p.borrowFee = .ok fee → fee.toRat = 0) (exact : Representable amount.toRat) :
    y.toRat = amount.toRat := by
  obtain ⟨share, share_eq, value⟩ := netOfBorrowFee_value h
  obtain ⟨-, -, none⟩ := borrowFeeShare_value share_eq
  rw [value, none free, mul_zero, truncate_zero, sub_zero, exact.truncate_eq]

/-- After the fee, the larger of two amounts is not the smaller one. -/
theorem netOfBorrowFee_mono {more y' : Decimal} (h : p.netOfBorrowFee amount = .ok y)
    (h' : p.netOfBorrowFee more = .ok y') (few : FewDigits amount.toRat)
    (exact : Representable more.toRat) (nonneg : 0 ≤ amount.toRat)
    (le : amount.toRat ≤ more.toRat) : y.toRat ≤ y'.toRat := by
  obtain ⟨share, share_eq, value⟩ := netOfBorrowFee_value h
  obtain ⟨share', share_eq', value'⟩ := netOfBorrowFee_value h'
  cases share_eq.symm.trans share_eq'
  obtain ⟨share_nonneg, share_le, -⟩ := borrowFeeShare_value share_eq
  rw [value, value']
  exact truncate_sub_share_mono few exact nonneg le share_nonneg share_le

theorem netOfBorrowFee_overflowOnly (nonneg : 0 ≤ p.config.fees.rawBorrowFee) (amount : Decimal) :
    (p.netOfBorrowFee amount).OverflowOnly := by
  unfold netOfBorrowFee
  refine (ScaledFraction.decode_overflowOnly nonneg).bind fun fee hfee =>
    (add_overflowOnly _ _).bind fun more hmore => ?_
  have one_le := (le_one_more hfee hmore).1
  exact (div_overflowOnly _ (by linarith : more.toRat ≠ 0)).bind fun _ _ =>
    (mul_overflowOnly _ _).bind fun _ _ => sub_overflowOnly _ _

end Lending.Pool
