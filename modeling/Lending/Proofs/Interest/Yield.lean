/-
  Lending.Proofs.Interest.Yield — the yield of a rate over a year.

  The yield compounds once per slot, so it is the 63072000th power of one plus the rate per
  slot. Up to a rate of 2147484 that base is below 1.035, whose 66th power is below 10; so
  the power has fewer than a million digits before the point (`exists_yearlyYield`).

  A higher rate never has a lower yield (`yearlyYield_mono`), for no step reverses an order.
  Without cuts the yield would be the rate at least, by Bernoulli's inequality. The power
  multiplies what is cut off its base by 63072000, and all other cuts are small beside that
  (`lt_yearlyYield`).
-/
import Lending.Proofs.Decimal.PowerOrder
import Lending.Proofs.Interest.Growth

namespace Lending.Interest

open Outcome Truncation

/-- What one slot may grow a debt by, so that a year of slots is in range. -/
def highestGrowth : ℚ := 207 / 200

theorem highestGrowth_pow_lt : highestGrowth ^ slotsPerYear.toNat < Decimal.limit / 2 := by
  have tenfold : highestGrowth ^ 66 ≤ 10 := by norm_num [highestGrowth]
  have one_le : 1 ≤ highestGrowth := by norm_num [highestGrowth]
  have half := Decimal.zpow_le_half_limit (e := 955638) (by decide)
  calc highestGrowth ^ slotsPerYear.toNat
      ≤ highestGrowth ^ (66 * 955637) := pow_le_pow_right₀ one_le (by decide)
    _ = (highestGrowth ^ 66) ^ 955637 := pow_mul _ _ _
    _ ≤ 10 ^ 955637 := pow_le_pow_left₀ (by positivity) tenfold _
    _ = (10 : ℚ) ^ (955637 : ℤ) := by rw [← zpow_natCast]; rfl
    _ < 10 ^ (955638 : ℤ) := zpow_lt_zpow_right₀ (by norm_num) (by norm_num)
    _ ≤ Decimal.limit / 2 := half

/-- Powers to this exponent are worked out to 50 digits. -/
theorem precision_forPower : (money.forPower slotsPerYear.toNat).precision = 50 := by decide

theorem slack_forPower : (money.forPower slotsPerYear.toNat).slack = 1 + 1 / 10 ^ 49 := by
  rw [Context.slack, precision_forPower]
  norm_num

theorem kept_forPower : (money.forPower slotsPerYear.toNat).kept = 1 - 1 / 10 ^ 49 := by
  rw [Context.kept, precision_forPower]
  norm_num

theorem exists_ratePerSlot {rate : Decimal} (size : |rate.toRat| < Decimal.limit) :
    ∃ base, ratePerSlot rate = .ok base := by
  have slots : (1 : ℚ) ≤ (Decimal.ofInt slotsPerYear).toRat := by
    rw [Decimal.toRat_ofInt]
    exact_mod_cast (by decide : 1 ≤ slotsPerYear)
  refine exists_div (zero_lt_one.trans_le slots).ne' ?_
  rw [abs_div, abs_of_pos (zero_lt_one.trans_le slots)]
  exact (div_le_self (abs_nonneg _) slots).trans_lt size

section
variable {rate : Decimal} (nonneg : 0 ≤ rate.toRat) (high : rate.toRat ≤ 2147484)
include nonneg high

/-- What one slot multiplies a debt by is given, and is below the highest growth. -/
theorem exists_slotGrowth : ∃ perSlot base, ratePerSlot rate = .ok perSlot ∧
    (1 + perSlot : Outcome Decimal) = .ok base ∧ 0 ≤ base.toRat ∧
      base.toRat ≤ 1 + 2147484 / 63072000 := by
  have large : (10 : ℚ) ^ (10 : ℤ) ≤ Decimal.limit / 2 := Decimal.zpow_le_half_limit (by decide)
  norm_num at large
  obtain ⟨perSlot, hperSlot⟩ : ∃ base, ratePerSlot rate = .ok base := by
    refine exists_ratePerSlot ?_
    rw [abs_of_nonneg nonneg]
    linarith [Decimal.limit_pos]
  have slot_nonneg : 0 ≤ perSlot.toRat := by
    rw [ratePerSlot_value hperSlot]
    exact slotRate_nonneg nonneg
  have slot_le : perSlot.toRat ≤ 2147484 / 63072000 := by
    rw [ratePerSlot_value hperSlot]
    exact (truncate_le (by positivity)).trans (div_le_div_of_nonneg_right high (by norm_num))
  obtain ⟨base, hbase⟩ : ∃ base, (1 + perSlot : Outcome Decimal) = .ok base := by
    refine exists_add ?_ ?_
    · rw [Decimal.toRat_one, abs_one]
      linarith
    · rw [abs_of_nonneg slot_nonneg]
      linarith
  refine ⟨perSlot, base, hperSlot, hbase, ?_⟩
  rw [add_value hbase, Decimal.toRat_one]
  exact ⟨truncate_nonneg (by linarith), (truncate_le (by linarith)).trans (by linarith)⟩

theorem exists_yearlyYield : ∃ y, yearlyYield rate = .ok y := by
  obtain ⟨perSlot, base, hperSlot, hbase, base_nonneg, base_le⟩ := exists_slotGrowth nonneg high
  obtain ⟨power, hpower, power_le⟩ : ∃ z, money.power base slotsPerYear.toNat = .ok z ∧
      |z.toRat| ≤ highestGrowth ^ slotsPerYear.toNat := by
    refine exists_power (by decide) ?_ ?_ ?_
    · rw [slack_forPower]
      norm_num [highestGrowth]
    · rw [slack_forPower, abs_of_nonneg base_nonneg]
      refine (mul_le_mul_of_nonneg_right base_le (by norm_num)).trans ?_
      norm_num [highestGrowth]
    · exact highestGrowth_pow_lt.trans (half_lt_self Decimal.limit_pos)
  obtain ⟨y, hy⟩ : ∃ y, (power - 1 : Outcome Decimal) = .ok y := by
    refine exists_sub (power_le.trans_lt highestGrowth_pow_lt) ?_
    have half : (10 : ℚ) ^ (1 : ℤ) ≤ Decimal.limit / 2 := Decimal.zpow_le_half_limit (by decide)
    rw [Decimal.toRat_one, abs_one]
    linarith
  refine ⟨y, ?_⟩
  unfold yearlyYield
  simp only [bind_eq_ok_iff]
  exact ⟨perSlot, hperSlot, base, hbase, power, hpower, hy⟩

end

/-! ## Order -/

def slotBase (rate : ℚ) : ℚ := truncate (1 + slotRate rate)

theorem one_le_slotBase {rate : ℚ} (nonneg : 0 ≤ rate) : 1 ≤ slotBase rate :=
  one_le_truncate_add le_rfl (slotRate_nonneg nonneg)

theorem slotBase_mono {rate rate' : ℚ} (le : rate ≤ rate') : slotBase rate ≤ slotBase rate' :=
  truncate_mono (add_le_add_right (slotRate_mono le) 1)

theorem exists_power_of_yearlyYield {rate y : Decimal} (h : yearlyYield rate = .ok y) :
    ∃ base power, base.toRat = slotBase rate.toRat ∧
      money.power base slotsPerYear.toNat = .ok power ∧ y.toRat = truncate (power.toRat - 1) := by
  unfold yearlyYield at h
  simp only [bind_eq_ok_iff] at h
  obtain ⟨perSlot, hperSlot, base, hbase, power, hpower, h⟩ := h
  refine ⟨base, power, ?_, hpower, ?_⟩
  · rw [add_value hbase, ratePerSlot_value hperSlot, Decimal.toRat_one]
    rfl
  · rw [sub_value h, Decimal.toRat_one]

theorem yearlyYield_mono {rate rate' y y' : Decimal} (nonneg : 0 ≤ rate.toRat)
    (le : rate.toRat ≤ rate'.toRat) (h : yearlyYield rate = .ok y)
    (h' : yearlyYield rate' = .ok y') : y.toRat ≤ y'.toRat := by
  obtain ⟨base, power, base_value, hpower, value⟩ := exists_power_of_yearlyYield h
  obtain ⟨base', power', base_value', hpower', value'⟩ := exists_power_of_yearlyYield h'
  have base_le : base.toRat ≤ base'.toRat := by
    rw [base_value, base_value']
    exact slotBase_mono le
  have base_one : 1 ≤ base.toRat := base_value ▸ one_le_slotBase nonneg
  have power_le := power_mono (by decide) hpower base_one base_le hpower'
  rw [value, value']
  exact truncate_mono (sub_le_sub_right power_le 1)

/-! ## The rate as a lower bound -/

section
variable {rate : ℚ} (nonneg : 0 ≤ rate) (le_one : rate ≤ 1)
include nonneg le_one

/-- The sum loses a unit. What the quotient loses before is small beside it. -/
theorem le_slotBase : 1 + rate / 63072000 - (1 + 2 / 63072000) / 10 ^ 39 ≤ slotBase rate := by
  have share_nonneg : 0 ≤ rate / 63072000 := by positivity
  have share_le : rate / 63072000 ≤ 1 / 63072000 :=
    div_le_div_of_nonneg_right le_one (by norm_num)
  have slot_lost := sub_truncate_le_of_normal share_nonneg share_le
    (normal_of_large (by norm_num))
  have slot_le := (truncate_le share_nonneg).trans share_le
  have sum_nonneg : 0 ≤ 1 + slotRate rate := by linarith [slotRate_nonneg nonneg]
  have sum_lost := sub_truncate_le_of_normal sum_nonneg (add_le_add_right slot_le 1)
    (normal_of_large (by norm_num))
  rw [ulp_eq] at slot_lost sum_lost
  unfold slotBase
  unfold slotRate at *
  linarith

theorem slotBase_le : slotBase rate ≤ 2 := by
  have share_nonneg : 0 ≤ rate / 63072000 := by positivity
  have slot_le : slotRate rate ≤ rate / 63072000 := truncate_le share_nonneg
  have sum_nonneg : 0 ≤ 1 + slotRate rate := by linarith [slotRate_nonneg nonneg]
  have cut := truncate_le sum_nonneg
  unfold slotBase
  linarith

end

theorem lt_yearlyYield {rate y : Decimal} (nonneg : 0 ≤ rate.toRat) (le_one : rate.toRat ≤ 1)
    (h : yearlyYield rate = .ok y) : rate.toRat - 1 / 10 ^ 31 < y.toRat := by
  obtain ⟨base, power, base_value, hpower, value⟩ := exists_power_of_yearlyYield h
  have base_one : 1 ≤ base.toRat := base_value ▸ one_le_slotBase nonneg
  have base_ge := le_slotBase nonneg le_one
  have base_le := slotBase_le nonneg le_one
  obtain ⟨power_ge, -⟩ := le_power (by decide) hpower base_one
  rw [kept_forPower] at power_ge
  rw [← base_value] at base_ge base_le
  have slots : ((slotsPerYear.toNat : ℕ) : ℚ) = 63072000 := by
    exact_mod_cast (by decide : slotsPerYear.toNat = 63072000)
  generalize slotsPerYear.toNat = n at *
  generalize hgain : rate.toRat / 63072000 - (1 + 3 / 63072000) / 10 ^ 39 = gain
  have gain_ge : -1 ≤ gain := by linarith
  have bernoulli := one_add_mul_le_pow (by linarith : -2 ≤ gain) n
  have steps : (1 + gain) ^ n ≤ (base.toRat * (1 - 1 / 10 ^ 49)) ^ n :=
    pow_le_pow_left₀ (by linarith) (by linarith) n
  have whole : (n : ℚ) * gain = rate.toRat - 63072003 / 10 ^ 39 := by
    rw [slots, ← hgain]
    ring
  rw [ulp_eq] at power_ge
  have yield_ge : rate.toRat - 63072005 / 10 ^ 39 ≤ power.toRat - 1 := by linarith
  have cut := truncate_mono yield_ge
  have lost : |truncate (rate.toRat - 63072005 / 10 ^ 39) - (rate.toRat - 63072005 / 10 ^ 39)| ≤
      ulp * 1 :=
    abs_truncate_sub_le_of_normal (by rw [abs_le]; constructor <;> linarith)
      (normal_of_large (by norm_num))
  rw [ulp_eq] at lost
  rw [value]
  linarith [(abs_le.mp lost).1]

/-- A higher rate has no lower yield, and up to 100 % the yield is above the rate or so close
    below it that the first 30 digits do not tell. -/
theorem yearlyYield_mono_and_gt {rate : Decimal} (nonneg : 0 ≤ rate) :
    (∀ rate' y y', rate ≤ rate' → yearlyYield rate = .ok y → yearlyYield rate' = .ok y' →
      y ≤ y') ∧
    (rate ≤ 1 → ∃ y, yearlyYield rate = .ok y ∧ rate.toRat - 1 / 10 ^ 31 < y.toRat) := by
  rw [Decimal.le_iff, Decimal.toRat_zero] at nonneg
  refine ⟨fun rate' y y' le h h' => ?_, fun le_one => ?_⟩
  · rw [Decimal.le_iff] at le ⊢
    exact yearlyYield_mono nonneg le h h'
  · rw [Decimal.le_iff, Decimal.toRat_one] at le_one
    obtain ⟨y, hy⟩ := exists_yearlyYield nonneg (by linarith)
    exact ⟨y, hy, lt_yearlyYield nonneg le_one hy⟩

/-- The yield of 10 % a year is 10.517 %, that of 20 % is 22.140 %. -/
theorem yearlyYield_mono_and_gt_sample :
    ∃ y y', yearlyYield ⟨false, 1, -1⟩ = .ok y ∧ yearlyYield ⟨false, 2, -1⟩ = .ok y' ∧
      y ≤ y' ∧ (⟨false, 1, -1⟩ : Decimal).toRat - 1 / 10 ^ 31 < y.toRat := by
  have higher : yearlyYield ⟨false, 2, -1⟩ =
      .ok ⟨false, 221402757772865560904681453255525870693, -39⟩ := by decide +kernel
  have nonneg : (0 : Decimal) ≤ ⟨false, 1, -1⟩ := by decide
  obtain ⟨rises, exceeds⟩ := yearlyYield_mono_and_gt nonneg
  obtain ⟨y, hy, above⟩ := exceeds (by decide)
  exact ⟨y, _, hy, higher, rises _ _ _ (by decide) hy higher, above⟩

end Lending.Interest
