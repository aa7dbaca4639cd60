/-
  Lending.Proofs.Reserve.BorrowFee — a fee that is paid out of the amount it is charged on.

  Of a whole amount `A` the borrower gets `net`, and pays the fee rate `f` on that. The share
  `f / (1 + f)` that is taken off `A` is cut, and so is the divisor it comes from: the one makes
  it smaller, the other larger (`abs_div_mul_sub_le`). The amount's share and what is left of the
  amount are cut too. Up to a rate of 1, all that shifts `net * (1 + f)` by six units of `A` at
  most (`abs_left_mul_sub_le`), so what is left and the fee on it fill the amount.

  Among amounts of 40 digits a larger one leaves no less, although the shares are cut on grids of
  their own (`truncate_sub_share_mono`). The main result `netOfBorrowFee_fills` says both of
  every rate; with digits below the finest grid the order breaks (`netOfBorrowFee_below_grid`).
-/
import Lending.Proofs.Decimal.Error
import Lending.Proofs.Reserve.Limits
import Lending.Reserve.Sample

namespace Lending

open Outcome Truncation

namespace Pool

variable {p : Pool} {fee share amount net : Decimal}

/-- A rate over one more than itself is far above the range where digits are lost. -/
theorem not_underflows_borrowFeeShare {more : ℚ} (rate : p.borrowFee = .ok fee)
    (positive : 0 < more) (le : more ≤ fee.toRat + 1) : ¬ Underflows (fee.toRat / more) := by
  rcases (ScaledFraction.decode_nonneg rate).eq_or_lt with none | some
  · rw [← none, zero_div]
    exact not_underflows_zero
  · have low := ScaledFraction.le_of_decode_pos rate some
    refine not_underflows_of_le (by norm_num : -999999 ≤ (-20 : ℤ)) ?_
    rw [abs_of_pos (div_pos some positive), le_div_iff₀ positive]
    norm_num at low ⊢
    linarith

/-- The share, taken of one and the fee on it, is the fee up to two units. -/
theorem borrowFeeShare_near (rate : p.borrowFee = .ok fee) (h : p.borrowFeeShare = .ok share) :
    |share.toRat * (1 + fee.toRat) - fee.toRat| ≤ 2 * ulp * fee.toRat := by
  obtain ⟨_, rate', h⟩ := bind_eq_ok_iff.mp h
  cases rate.symm.trans rate'
  obtain ⟨more, more_eq, share_eq⟩ := bind_eq_ok_iff.mp h
  have fee_nonneg := ScaledFraction.decode_nonneg rate
  have one_le : 1 ≤ 1 + fee.toRat := by linarith
  have divisor : Within 1 more.toRat (1 + fee.toRat) := by
    rw [add_value more_eq, Decimal.toRat_one, add_comm]
    refine within_truncate (not_underflows_of_le (by norm_num : -999999 ≤ (0 : ℤ)) ?_)
    rw [zpow_zero, abs_of_pos (by linarith)]
    exact one_le
  have more_pos : 0 < more.toRat := zero_lt_one.trans_le (le_one_more rate more_eq).1
  have more_le := divisor.le (by linarith)
  have quotient : Within 1 share.toRat (fee.toRat / more.toRat) := by
    rw [(div_value share_eq).2]
    exact within_truncate (not_underflows_borrowFeeShare rate more_pos (by linarith))
  exact abs_div_mul_sub_le fee_nonneg (by linarith) divisor quotient

def FeeKeepsDigits (p : Pool) (amount : Decimal) : Prop :=
  ∀ share, p.borrowFeeShare = .ok share →
    ¬ Underflows (amount.toRat * share.toRat) ∧
      ¬ Underflows (amount.toRat - truncate (amount.toRat * share.toRat))

/-- Up to a rate of 1 that is so of every amount but those next to the end of the range. -/
theorem feeKeepsDigits_of_le {e : ℤ} (rate : p.borrowFee = .ok fee) (fee_le : fee.toRat ≤ 1)
    (normal : -999979 ≤ e) (large : 10 ^ e ≤ amount.toRat) : p.FeeKeepsDigits amount := by
  intro share share_eq
  obtain ⟨share_nonneg, -, free⟩ := borrowFeeShare_value share_eq
  have fee_nonneg := ScaledFraction.decode_nonneg rate
  have ten : (0 : ℚ) < 10 ^ e := by positivity
  have nonneg : 0 ≤ amount.toRat := ten.le.trans large
  obtain ⟨share_low, share_high⟩ := abs_le.mp (borrowFeeShare_near rate share_eq)
  have unit : 2 * ulp ≤ 1 / 4 := by norm_num [ulp_eq]
  have slack := mul_le_mul_of_nonneg_right unit fee_nonneg
  constructor
  · rcases fee_nonneg.eq_or_lt with none | some
    · have no_share : share.toRat = 0 := by
        refine free fun fee' rate' => ?_
        cases rate.symm.trans rate'
        exact none.symm
      rw [no_share, mul_zero]
      exact not_underflows_zero
    · have low := ScaledFraction.le_of_decode_pos rate some
      have at_least : (10 : ℚ) ^ (-20 : ℤ) ≤ share.toRat := by
        have both := mul_le_mul_of_nonneg_left fee_le share_nonneg
        norm_num at low ⊢
        linarith
      refine not_underflows_of_le (by omega : -999999 ≤ e + -20) ?_
      rw [abs_of_nonneg (mul_nonneg nonneg share_nonneg), zpow_add₀ (by norm_num)]
      exact mul_le_mul large at_least (by positivity) nonneg
  · have at_most : share.toRat ≤ 3 / 4 := by
      by_contra above
      have more := mul_lt_mul_of_pos_right (not_le.mp above)
        (by linarith : 0 < 1 + fee.toRat)
      linarith
    have part_le := truncate_le (mul_nonneg nonneg share_nonneg)
    have rest := mul_le_mul_of_nonneg_left at_most nonneg
    have low : (10 : ℚ) ^ (e + -1) ≤ amount.toRat - truncate (amount.toRat * share.toRat) := by
      rw [zpow_add₀ (by norm_num), zpow_neg_one]
      linarith
    refine not_underflows_of_le (by omega : -999999 ≤ e + -1) ?_
    rwa [abs_of_pos (lt_of_lt_of_le (by positivity) low)]

/-- What is left of an amount when the share for a rate is taken off, and the rate on it: each of
    the two cuts costs a unit, and so does each unit that the share is off. -/
theorem abs_left_mul_sub_le {a s f : ℚ} (nonneg : 0 ≤ a) (share_nonneg : 0 ≤ s) (share_le : s ≤ 1)
    (rate_nonneg : 0 ≤ f) (rate_le : f ≤ 1) (near : |s * (1 + f) - f| ≤ 2 * ulp * f)
    (kept_part : ¬ Underflows (a * s)) (kept_left : ¬ Underflows (a - truncate (a * s))) :
    |truncate (a - truncate (a * s)) * (1 + f) - a| ≤ 6 * ulp * a := by
  have product := mul_nonneg nonneg share_nonneg
  have part_nonneg := truncate_nonneg product
  have part_le := truncate_share_le nonneg share_nonneg share_le
  have cut_part := sub_truncate_le product kept_part
  have cut_left := sub_truncate_le (sub_nonneg.mpr part_le) kept_left
  have part_below := truncate_le product
  have left_below := truncate_le (sub_nonneg.mpr part_le)
  generalize truncate (a * s) = part at *
  generalize truncate (a - part) = left at *
  have unit := ulp_pos
  have off_share : |a * (f - s * (1 + f))| ≤ 2 * ulp * a := by
    rw [abs_mul, abs_of_nonneg nonneg, abs_sub_comm]
    calc a * |s * (1 + f) - f| ≤ a * (2 * ulp * f) := mul_le_mul_of_nonneg_left near nonneg
      _ ≤ a * (2 * ulp * 1) := by gcongr
      _ = 2 * ulp * a := by ring
  -- a unit that is cut off counts twice at most with the rate on it
  have doubled {x : ℚ} (low : 0 ≤ x) (high : x ≤ ulp * a) :
      0 ≤ x * (1 + f) ∧ x * (1 + f) ≤ 2 * ulp * a := by
    refine ⟨mul_nonneg low (by linarith), ?_⟩
    calc x * (1 + f) ≤ ulp * a * (1 + 1) := by gcongr
      _ = 2 * ulp * a := by ring
  have off_part := doubled (x := a * s - part) (sub_nonneg.mpr part_below)
    (cut_part.trans (mul_le_mul_of_nonneg_left (mul_le_of_le_one_right nonneg share_le) unit.le))
  have off_left := doubled (x := a - part - left) (sub_nonneg.mpr left_below)
    (cut_left.trans (mul_le_mul_of_nonneg_left (sub_le_self a part_nonneg) unit.le))
  have split : left * (1 + f) - a =
      a * (f - s * (1 + f)) + (a * s - part) * (1 + f) - (a - part - left) * (1 + f) := by ring
  rw [split]
  rw [abs_le] at off_share ⊢
  constructor <;> linarith

/-- What is left and the fee on it fill the amount. -/
theorem netOfBorrowFee_near (rate : p.borrowFee = .ok fee) (fee_le : fee.toRat ≤ 1)
    (nonneg : 0 ≤ amount.toRat) (kept : p.FeeKeepsDigits amount)
    (h : p.netOfBorrowFee amount = .ok net) :
    |net.toRat * (1 + fee.toRat) - amount.toRat| ≤ amount.toRat / 10 ^ 38 := by
  obtain ⟨share, share_eq, value⟩ := netOfBorrowFee_value h
  obtain ⟨kept_part, kept_left⟩ := kept share share_eq
  obtain ⟨share_nonneg, share_le, -⟩ := borrowFeeShare_value share_eq
  have units := abs_left_mul_sub_le nonneg share_nonneg share_le
    (ScaledFraction.decode_nonneg rate) fee_le (borrowFeeShare_near rate share_eq) kept_part kept_left
  rw [value]
  refine units.trans ?_
  rw [div_eq_inv_mul]
  exact mul_le_mul_of_nonneg_right (by norm_num [ulp_eq]) nonneg

/-- For every fee rate, what is left of an amount is given. Up to a rate of 1, the fee on it and
    it fill the amount. It is not negative and no more than the amount; and of a larger amount
    it is no less, as long as that one has no digit below the finest grid. -/
theorem netOfBorrowFee_fills (rate : p.borrowFee = .ok fee) :
    (∀ amount : Decimal, 0 ≤ amount.toRat → amount.toRat < Decimal.limit →
      ∃ net, p.netOfBorrowFee amount = .ok net) ∧
    (fee.toRat ≤ 1 → ∀ amount net : Decimal, 0 ≤ amount.toRat → p.FeeKeepsDigits amount →
      p.netOfBorrowFee amount = .ok net →
      |net.toRat * (1 + fee.toRat) - amount.toRat| ≤ amount.toRat / 10 ^ 38) ∧
    ∀ amount more net net' : Decimal, 0 ≤ amount.toRat → amount.toRat ≤ more.toRat →
      FewDigits amount.toRat → FewDigits more.toRat →
      p.netOfBorrowFee amount = .ok net → p.netOfBorrowFee more = .ok net' →
      0 ≤ net.toRat ∧ net'.toRat ≤ more.toRat ∧
        (OnGrid more.toRat → net.toRat ≤ net'.toRat) := by
  refine ⟨fun amount => exists_netOfBorrowFee rate, fun fee_le amount net nonneg kept h =>
    netOfBorrowFee_near rate fee_le nonneg kept h, ?_⟩
  intro amount more net net' nonneg le few few' h h'
  refine ⟨netOfBorrowFee_nonneg h nonneg, ?_, fun grid => ?_⟩
  · have bound := netOfBorrowFee_le h'
    rwa [max_eq_right (nonneg.trans le)] at bound
  · exact netOfBorrowFee_mono h h' few (few'.representable grid) nonneg le

end Pool

/-! ## Samples -/

namespace Sample

def charging (rawFee : ℤ) : Pool :=
  { pool with account := { account with
      config := { account.config with fees := { rawBorrowFee := rawFee } } } }

end Sample

namespace Pool

example : (Sample.charging (Sample.scale / 4)).netOfBorrowFee (Decimal.ofInt 800) =
    .ok (Decimal.ofInt 640) := by decide +kernel

/-- A fee of 30 percent, and amounts that are half a unit apart. -/
theorem netOfBorrowFee_fills_sample : ∃ fee net net',
    (Sample.charging (3 * Sample.scale / 10)).borrowFee = .ok fee ∧ fee.toRat ≤ 1 ∧
    (Sample.charging (3 * Sample.scale / 10)).netOfBorrowFee ⟨false, 1, 6⟩ = .ok net ∧
    (Sample.charging (3 * Sample.scale / 10)).netOfBorrowFee ⟨false, 10000005, -1⟩ = .ok net' ∧
    (Sample.charging (3 * Sample.scale / 10)).FeeKeepsDigits ⟨false, 1, 6⟩ ∧
    |net.toRat * (1 + fee.toRat) - 1000000| ≤ 1000000 / 10 ^ 38 ∧
    0 ≤ net.toRat ∧ net'.toRat ≤ 1000000 + 1 / 2 ∧ net.toRat ≤ net'.toRat := by
  have rate : (Sample.charging (3 * Sample.scale / 10)).borrowFee = .ok ⟨false, 3, -1⟩ := by
    decide +kernel
  have fee_le : (⟨false, 3, -1⟩ : Decimal).toRat ≤ 1 := by decide +kernel
  have amount : (⟨false, 1, 6⟩ : Decimal).toRat = 1000000 := by decide +kernel
  have more : (⟨false, 10000005, -1⟩ : Decimal).toRat = 1000000 + 1 / 2 := by decide +kernel
  have kept : (Sample.charging (3 * Sample.scale / 10)).FeeKeepsDigits ⟨false, 1, 6⟩ := by
    refine feeKeepsDigits_of_le rate fee_le (by norm_num : -999979 ≤ (0 : ℤ)) ?_
    rw [zpow_zero, amount]
    norm_num
  have few : FewDigits (⟨false, 1, 6⟩ : Decimal).toRat :=
    ⟨1, 6, by norm_num, by rw [amount]; norm_num⟩
  have figure : Representable (⟨false, 10000005, -1⟩ : Decimal).toRat :=
    ⟨10000005, -1, by norm_num, by decide, by rw [more]; norm_num⟩
  obtain ⟨given, near, order⟩ := netOfBorrowFee_fills rate
  obtain ⟨net, net_eq⟩ := given ⟨false, 1, 6⟩ (by decide +kernel)
    (lt_of_abs_lt (Decimal.lt_limit_of_adjusted (by decide +kernel)))
  obtain ⟨net', net_eq'⟩ := given ⟨false, 10000005, -1⟩ (by decide +kernel)
    (lt_of_abs_lt (Decimal.lt_limit_of_adjusted (by decide +kernel)))
  have close := near fee_le _ _ (by decide +kernel) kept net_eq
  obtain ⟨nonneg, le, mono⟩ := order _ _ _ _ (by decide +kernel) (by decide +kernel) few
    figure.fewDigits net_eq net_eq'
  rw [amount] at close
  rw [more] at le
  exact ⟨_, net, net', rate, fee_le, net_eq, net_eq', kept, close, nonneg, le,
    mono figure.onGrid⟩

/-- With a fee of a half, three steps of the finest grid are left whole: their share is less than
    a step. Of three and a half the share is a step, and the half is lost besides. -/
theorem netOfBorrowFee_below_grid :
    (Sample.charging (Sample.scale / 2)).borrowFee = .ok ⟨false, 5, -1⟩ ∧
    (Sample.charging (Sample.scale / 2)).netOfBorrowFee ⟨false, 3, -1000038⟩ =
      .ok ⟨false, 3, -1000038⟩ ∧
    (Sample.charging (Sample.scale / 2)).netOfBorrowFee ⟨false, 35, -1000039⟩ =
      .ok ⟨false, 2, -1000038⟩ ∧
    0 ≤ (⟨false, 3, -1000038⟩ : Decimal).toRat ∧
    (⟨false, 3, -1000038⟩ : Decimal).toRat ≤ (⟨false, 35, -1000039⟩ : Decimal).toRat ∧
    FewDigits (⟨false, 3, -1000038⟩ : Decimal).toRat ∧
    FewDigits (⟨false, 35, -1000039⟩ : Decimal).toRat ∧
    ¬ (⟨false, 3, -1000038⟩ : Decimal).toRat ≤ (⟨false, 2, -1000038⟩ : Decimal).toRat := by
  refine ⟨by decide +kernel, by decide +kernel, by decide +kernel, ?_, ?_, ?_, ?_, ?_⟩
  · rw [← Decimal.toRat_zero]
    exact (Decimal.le_iff _ _).mp (by decide +kernel)
  · exact (Decimal.le_iff _ _).mp (by decide +kernel)
  · exact ⟨3, -1000038, by norm_num, by rw [Decimal.toRat_eq]; simp⟩
  · exact ⟨35, -1000039, by norm_num, by rw [Decimal.toRat_eq]; simp⟩
  · exact mt (Decimal.le_iff _ _).mpr (by decide +kernel)

end Pool

end Lending
