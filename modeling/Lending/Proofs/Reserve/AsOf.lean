/-
  Lending.Proofs.Reserve.AsOf — a pool as of its last refresh, or at a slot.

  At a slot not after the last refresh the projected rates are the pool's own, digit by digit
  (`exchangeRateAsOf_of_not_later`, `cumulativeBorrowRateAsOf_of_not_later`). At any time the
  rates of an opened reserve are there, up to an overflow, and no exchange rate is zero
  (`exchangeRateAsOf_ne_zero`): the supply it is divided by is below the limit of an amount.
-/
import Lending.Proofs.Interest.Yield
import Lending.Proofs.Reserve.BorrowIndex

namespace Lending

open Interest Outcome Truncation

namespace Pool

def supplyAsOf (p : Pool) (referralFeeBps : ℤ) : Option ℤ → Outcome Decimal
  | none => p.totalSupply
  | some slot => p.totalSupplyAt slot referralFeeBps

def exchangeRateAsOf (p : Pool) (referralFeeBps : ℤ) : Option ℤ → Outcome Decimal
  | none => p.exchangeRate
  | some slot => p.exchangeRateAt slot referralFeeBps

def cumulativeBorrowRateAsOf (p : Pool) : Option ℤ → Outcome Decimal
  | none => p.cumulativeBorrowRate
  | some slot => p.cumulativeBorrowRateAt slot

theorem exchangeRateAsOf_eq (p : Pool) (referralFeeBps : ℤ) (time : Option ℤ) :
    p.exchangeRateAsOf referralFeeBps time =
      p.supplyAsOf referralFeeBps time >>= p.exchangeRateFor := by
  cases time <;> rfl

/-! ## Not after the last refresh -/

section
variable {p : Pool} {slot : ℤ} (not_later : slot ≤ p.account.lastUpdate.slot)
include not_later

theorem slotsSince_of_not_later : p.slotsSince slot = 0 :=
  max_eq_right (sub_nonpos.mpr not_later)

theorem totalSupplyAt_of_not_later (referralFeeBps : ℤ) :
    p.totalSupplyAt slot referralFeeBps = p.totalSupply := by
  unfold totalSupplyAt debtAndSupplyAt
  rw [if_pos (slotsSince_of_not_later not_later)]
  cases owed : p.borrowed with
  | error fault =>
    -- then the supply cannot be given either
    unfold totalSupply
    rw [owed]
    rfl
  | ok debt => cases p.totalSupply <;> rfl

theorem exchangeRateAsOf_of_not_later (referralFeeBps : ℤ) :
    p.exchangeRateAsOf referralFeeBps (some slot) = p.exchangeRateAsOf referralFeeBps none := by
  show p.totalSupplyAt slot referralFeeBps >>= p.exchangeRateFor = p.totalSupply >>= _
  rw [totalSupplyAt_of_not_later not_later]

theorem debtAndSupplyAt_of_not_later (f : p.Figures) (referralFeeBps : ℤ) :
    p.debtAndSupplyAt slot referralFeeBps = .ok ⟨f.debt, f.supply⟩ := by
  unfold debtAndSupplyAt
  rw [if_pos (slotsSince_of_not_later not_later), f.borrowed_eq, f.totalSupply_eq]
  rfl

end

theorem Figures.borrowApr_result {p : Pool} (f : p.Figures) : f.borrowApr.Result := by
  obtain ⟨curve, -, h⟩ := bind_eq_ok_iff.mp f.borrowApr_eq
  obtain ⟨utilization, -, h⟩ := bind_eq_ok_iff.mp h
  obtain ⟨rate, -, h⟩ := bind_eq_ok_iff.mp h
  obtain ⟨adjustment, -, h⟩ := bind_eq_ok_iff.mp h
  exact (mul_result h).2

/-- Over no slots, a rate that can be given grows nothing. -/
theorem growthFactor_zero {rate : Decimal} (result : rate.Result) :
    growthFactor rate 0 = .ok 1 := by
  obtain ⟨base, per_slot⟩ := exists_ratePerSlot result.size
  unfold growthFactor
  rw [per_slot]
  rfl

theorem cumulativeBorrowRateAsOf_of_not_later {p : Pool} (f : p.Figures) {slot : ℤ}
    (not_later : slot ≤ p.account.lastUpdate.slot) :
    p.cumulativeBorrowRateAsOf (some slot) = p.cumulativeBorrowRateAsOf none := by
  show p.cumulativeBorrowRateAt slot = p.cumulativeBorrowRate
  unfold cumulativeBorrowRateAt
  rw [f.borrowApr_eq, slotsSince_of_not_later not_later]
  show growthFactor f.borrowApr 0 >>= _ = _
  rw [growthFactor_zero f.borrowApr_result]
  cases stored : p.cumulativeBorrowRate with
  | error fault => rfl
  | ok rate => exact (ScaledFraction.decode_result stored).mul_one_eq

/-! ## At any time -/

theorem supplyAsOf_overflowOnly {p : Pool} (f : p.Figures) (referralFeeBps : ℤ)
    (time : Option ℤ) : (p.supplyAsOf referralFeeBps time).OverflowOnly := by
  cases time with
  | none => exact .of_eq f.totalSupply_eq
  | some slot => exact (debtAndSupplyAt_overflowOnly f slot referralFeeBps).bind fun _ _ => .pure _

theorem totalSupply_result {p : Pool} {supply : Decimal} (h : p.totalSupply = .ok supply) :
    supply.Result := by
  unfold totalSupply at h
  simp only [bind_eq_ok_iff] at h
  obtain ⟨_, -, _, -, _, -, _, -, _, -, _, -, _, -, h⟩ := h
  exact sub_result h

theorem supplyAfter_result {p : Pool} {i : CompoundedInterest} {supply : Decimal}
    (h : p.supplyAfter i = .ok supply) : supply.Result := by
  unfold supplyAfter at h
  simp only [bind_eq_ok_iff] at h
  obtain ⟨_, -, _, -, _, -, _, -, h⟩ := h
  exact sub_result h

theorem newDebt_result {p : Pool} {slots bps : ℤ} {i : CompoundedInterest}
    (h : p.compound slots bps = .ok i) : i.newDebt.Result := by
  unfold compound at h
  simp only [bind_eq_ok_iff] at h
  obtain ⟨_, -, _, -, _, -, _, -, _, -, _, -, _, -, debt, -, newDebt, grown, _, -, _, -, _, -, _, -,
    _, -, _, -, _, -, _, -, _, -, _, -, _, -, _, -, _, -, h⟩ := h
  cases h
  exact (mul_result grown).2

/-- Debt and supply, whether they are estimated or stored, are what operations gave. -/
theorem debtAndSupplyAt_results {p : Pool} {slot bps : ℤ} {e : DebtAndSupply}
    (h : p.debtAndSupplyAt slot bps = .ok e) : e.debt.Result ∧ e.supply.Result := by
  unfold debtAndSupplyAt at h
  split at h
  · simp only [bind_eq_ok_iff] at h
    obtain ⟨debt, borrowed, supply, total, h⟩ := h
    cases h
    exact ⟨ScaledFraction.decode_result borrowed, totalSupply_result total⟩
  · simp only [bind_eq_ok_iff] at h
    obtain ⟨i, compounded, supply, after, h⟩ := h
    cases h
    exact ⟨newDebt_result compounded, supplyAfter_result after⟩

theorem supplyAsOf_result {p : Pool} {referralFeeBps : ℤ} {time : Option ℤ} {supply : Decimal}
    (h : p.supplyAsOf referralFeeBps time = .ok supply) : supply.Result := by
  cases time with
  | none => exact totalSupply_result h
  | some slot =>
    obtain ⟨e, estimate, h⟩ := bind_eq_ok_iff.mp h
    cases h
    exact (debtAndSupplyAt_results estimate).2

/-- With collateral tokens issued against a supply, the rate is one over the other, cut. -/
theorem exchangeRateFor_eq {p : Pool} {supply : Decimal}
    (issued : p.account.collateral.totalSupply ≠ 0) (some : supply.toRat ≠ 0) :
    p.exchangeRateFor supply = Decimal.ofInt p.account.collateral.totalSupply / supply := by
  unfold exchangeRateFor
  rw [if_neg (not_or.mpr ⟨issued, mt (Decimal.isZero_iff _).mp some⟩)]

theorem exchangeRateFor_spec (p : Pool) {supply : Decimal} (result : supply.Result) :
    (p.exchangeRateFor supply).OverflowOnly ∧
      ∀ rate, p.exchangeRateFor supply = .ok rate → rate.toRat ≠ 0 := by
  by_cases none : p.account.collateral.totalSupply = 0 ∨ supply.isZero
  · unfold exchangeRateFor
    rw [if_pos none]
    refine ⟨.pure _, fun rate given => ?_⟩
    cases given
    rw [Decimal.toRat_one]
    exact one_ne_zero
  · obtain ⟨issued, some⟩ := not_or.mp none
    have some := mt (Decimal.isZero_iff supply).mpr some
    rw [exchangeRateFor_eq issued some]
    refine ⟨div_overflowOnly _ some, fun rate given => ?_⟩
    refine div_ne_zero_of_one_le given ?_ result.size
    rw [Decimal.toRat_ofInt]
    exact_mod_cast Int.one_le_abs issued

theorem exchangeRateAsOf_overflowOnly {p : Pool} (f : p.Figures) (referralFeeBps : ℤ)
    (time : Option ℤ) : (p.exchangeRateAsOf referralFeeBps time).OverflowOnly := by
  rw [exchangeRateAsOf_eq]
  exact (supplyAsOf_overflowOnly f referralFeeBps time).bind fun supply supplied =>
    (p.exchangeRateFor_spec (supplyAsOf_result supplied)).1

/-- No exchange rate is zero, whatever the supply. -/
theorem exchangeRateAsOf_ne_zero {p : Pool} {referralFeeBps : ℤ} {time : Option ℤ}
    {rate : Decimal} (h : p.exchangeRateAsOf referralFeeBps time = .ok rate) : rate.toRat ≠ 0 := by
  rw [exchangeRateAsOf_eq] at h
  obtain ⟨supply, supplied, given⟩ := bind_eq_ok_iff.mp h
  exact (p.exchangeRateFor_spec (supplyAsOf_result supplied)).2 rate given

theorem cumulativeBorrowRateAsOf_overflowOnly {p : Pool} (f : p.Figures)
    (limbs : ∀ limb ∈ p.account.liquidity.cumulativeBorrowRateLimbs, 0 ≤ limb) (time : Option ℤ) :
    (p.cumulativeBorrowRateAsOf time).OverflowOnly := by
  have stored : p.cumulativeBorrowRate.OverflowOnly := ScaledFraction.decodeLimbs_overflowOnly limbs
  cases time with
  | none => exact stored
  | some slot => exact cumulativeBorrowRateAt_overflowOnly f stored slot

end Pool

end Lending
