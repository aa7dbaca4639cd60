/-
  Lending.Proofs.Reserve.BorrowIndex — the debt of a pool beside the index of its borrowers.

  The total debt grows by the borrow rate and the fixed host rate together, the cumulative
  rate by the borrow rate alone (`debt_value`, `index_value`). Without a host rate, or before
  a slot has passed, both grow by one factor (`index_matches_debt`). Otherwise the index
  falls behind, by more than any cut can explain (`index_behind_debt`).
-/
import Lending.Proofs.Reserve.Accrual

namespace Lending.Pool

open Interest Outcome Truncation

def hostRate (p : Pool) : ℚ := truncate (p.config.hostFixedInterestRateBps / 10000)

theorem slotsSince_nonneg (p : Pool) (slot : ℤ) : 0 ≤ p.slotsSince slot := le_max_right _ _

theorem growth_zero (rate : ℚ) : growth rate 0 = 1 := by simp [growth, growthPerSlot]

theorem Figures.representable_borrowApr {p : Pool} (f : p.Figures) :
    Representable f.borrowApr.toRat := by
  obtain ⟨curve, -, h⟩ := bind_eq_ok_iff.mp f.borrowApr_eq
  obtain ⟨utilization, -, h⟩ := bind_eq_ok_iff.mp h
  obtain ⟨rate, -, h⟩ := bind_eq_ok_iff.mp h
  obtain ⟨adjustment, -, h⟩ := bind_eq_ok_iff.mp h
  rw [mul_value h]
  exact representable_truncate _

theorem debt_value {p : Pool} (f : p.Figures) {slot bps : ℤ} {e : DebtAndSupply}
    (h : p.debtAndSupplyAt slot bps = .ok e) :
    e.debt.toRat = truncate (f.debt.toRat *
      growth (truncate (f.borrowApr.toRat + p.hostRate)) (p.slotsSince slot)) := by
  unfold debtAndSupplyAt at h
  split at h
  · rename_i now
    rw [f.borrowed_eq, f.totalSupply_eq] at h
    cases h
    rw [now, growth_zero, mul_one, f.representable_debt.truncate_eq]
  · obtain ⟨i, compounded, h⟩ := bind_eq_ok_iff.mp h
    obtain ⟨supply, -, h⟩ := bind_eq_ok_iff.mp h
    cases h
    obtain ⟨host, share, hhost, -, a⟩ := compound_accrued f compounded
    rw [a.newDebt, shareOfBps_value hhost]
    rfl

theorem index_value {p : Pool} (f : p.Figures) {slot : ℤ} {c index : Decimal}
    (rate : p.cumulativeBorrowRate = .ok c) (h : p.cumulativeBorrowRateAt slot = .ok index) :
    index.toRat = truncate (c.toRat * growth f.borrowApr.toRat (p.slotsSince slot)) := by
  unfold cumulativeBorrowRateAt at h
  rw [f.borrowApr_eq, rate] at h
  obtain ⟨_, ⟨⟩, h⟩ := bind_eq_ok_iff.mp h
  obtain ⟨g, hg, h⟩ := bind_eq_ok_iff.mp h
  obtain ⟨_, ⟨⟩, h⟩ := bind_eq_ok_iff.mp h
  rw [mul_value h, growthFactor_value hg]

theorem cumulativeBorrowRateAt_overflowOnly {p : Pool} (f : p.Figures)
    (rate : p.cumulativeBorrowRate.OverflowOnly) (slot : ℤ) :
    (p.cumulativeBorrowRateAt slot).OverflowOnly :=
  (OverflowOnly.of_eq f.borrowApr_eq).bind fun _ _ => (growthFactor_overflowOnly _ _).bind
    fun _ _ => rate.bind fun _ _ => mul_overflowOnly _ _

/-- A figure of an account that is not zero can grow without losing digits. -/
theorem not_underflows_growth {x rate : ℚ} {n : ℤ} (hx : 10 ^ (-19 : ℤ) ≤ x) (h : 0 ≤ rate)
    (hn : 0 ≤ n) : ¬ Underflows (x * growth rate n) := by
  have x_nonneg : 0 ≤ x := le_trans (by positivity) hx
  have grown : x ≤ x * growth rate n := le_mul_of_one_le_right x_nonneg (one_le_growth h hn)
  refine not_underflows_of_le (by norm_num : -999999 ≤ (-19 : ℤ)) ?_
  rw [abs_of_nonneg (x_nonneg.trans grown)]
  exact hx.trans grown

def KeepsDigits (p : Pool) (x : Decimal) (slot : ℤ) : Prop :=
  ∀ apr g, p.borrowApr = .ok apr → growthFactor apr (p.slotsSince slot) = .ok g →
    ¬ Underflows (x.toRat * g.toRat)

theorem keepsDigits_of_nonneg {p : Pool} {apr x : Decimal} (rate : p.borrowApr = .ok apr)
    (apr_nonneg : 0 ≤ apr.toRat) (hx : 10 ^ (-19 : ℤ) ≤ x.toRat) (slot : ℤ) :
    p.KeepsDigits x slot := by
  intro apr' g rate' hg
  cases rate.symm.trans rate'
  rw [growthFactor_value hg]
  exact not_underflows_growth hx apr_nonneg (p.slotsSince_nonneg slot)

theorem KeepsDigits.not_underflows {p : Pool} {x : Decimal} {slot : ℤ} (kept : p.KeepsDigits x slot)
    (f : p.Figures) {index : Decimal} (indexed : p.cumulativeBorrowRateAt slot = .ok index) :
    ¬ Underflows (x.toRat * growth f.borrowApr.toRat (p.slotsSince slot)) := by
  unfold cumulativeBorrowRateAt at indexed
  rw [f.borrowApr_eq] at indexed
  obtain ⟨_, ⟨⟩, indexed⟩ := bind_eq_ok_iff.mp indexed
  obtain ⟨g, hg, -⟩ := bind_eq_ok_iff.mp indexed
  rw [← growthFactor_value hg]
  exact kept _ g f.borrowApr_eq hg

/-- Without a host rate the debt grows like the index. -/
theorem debt_value_of_no_host {p : Pool} (f : p.Figures) {slot bps : ℤ} {e : DebtAndSupply}
    (estimate : p.debtAndSupplyAt slot bps = .ok e)
    (none : p.config.hostFixedInterestRateBps = 0 ∨ p.slotsSince slot = 0) :
    e.debt.toRat =
      truncate (f.debt.toRat * growth f.borrowApr.toRat (p.slotsSince slot)) := by
  rw [debt_value f estimate]
  rcases none with zero | now
  · rw [hostRate, zero]
    simp [f.representable_borrowApr.truncate_eq]
  · rw [now, growth_zero, growth_zero]

/-- With a host rate the index falls behind in the 35th digit. -/
theorem index_behind_debt {p : Pool} (f : p.Figures) {slot bps : ℤ} {e : DebtAndSupply}
    {c index : Decimal} (estimate : p.debtAndSupplyAt slot bps = .ok e)
    (rate : p.cumulativeBorrowRate = .ok c) (indexed : p.cumulativeBorrowRateAt slot = .ok index)
    (debt : 0 < f.debt.toRat) (host : 0 < p.config.hostFixedInterestRateBps)
    (later : 0 < p.slotsSince slot) (apr_nonneg : 0 ≤ f.borrowApr.toRat)
    (apr_le : f.borrowApr.toRat ≤ 10 ^ 30) :
    f.debt.toRat * index.toRat * (1 + 4 / 10 ^ 35) ≤ e.debt.toRat * c.toRat := by
  have host_le : 1 / 10 ^ 4 ≤ p.hostRate := by
    have one : (1 : ℚ) ≤ p.config.hostFixedInterestRateBps := by exact_mod_cast host
    refine Representable.le_truncate ⟨1, -4, by norm_num, by decide, by norm_num⟩ ?_
    linarith
  have host_nonneg : 0 ≤ p.hostRate := le_trans (by norm_num) host_le
  have gap := growth_gap apr_nonneg apr_le host_le (by omega : 1 ≤ p.slotsSince slot)
  have c_nonneg := ScaledFraction.decode_nonneg rate
  have debt_low := ScaledFraction.le_of_decode_pos f.borrowed_eq debt
  have slower := one_le_growth apr_nonneg later.le
  have index_le : index.toRat ≤ c.toRat * growth f.borrowApr.toRat (p.slotsSince slot) := by
    rw [index_value f rate indexed]
    exact truncate_le (mul_nonneg c_nonneg (by linarith))
  have grown := (within_truncate (not_underflows_growth debt_low
    (truncate_nonneg (add_nonneg apr_nonneg host_nonneg)) later.le)).ge
    (mul_nonneg debt.le (by linarith))
  rw [← debt_value f estimate] at grown
  have step : growth f.borrowApr.toRat (p.slotsSince slot) * (1 + 4 / 10 ^ 35) ≤
      (1 - (1 : ℕ) * ulp) *
        growth (truncate (f.borrowApr.toRat + p.hostRate)) (p.slotsSince slot) := by
    norm_num [ulp] at gap ⊢
    linarith
  calc f.debt.toRat * index.toRat * (1 + 4 / 10 ^ 35)
      ≤ f.debt.toRat * (c.toRat * growth f.borrowApr.toRat (p.slotsSince slot))
        * (1 + 4 / 10 ^ 35) := by gcongr
    _ = f.debt.toRat * c.toRat
        * (growth f.borrowApr.toRat (p.slotsSince slot) * (1 + 4 / 10 ^ 35)) := by ring
    _ ≤ f.debt.toRat * c.toRat * ((1 - (1 : ℕ) * ulp)
        * growth (truncate (f.borrowApr.toRat + p.hostRate)) (p.slotsSince slot)) :=
      mul_le_mul_of_nonneg_left step (mul_nonneg debt.le c_nonneg)
    _ = (1 - (1 : ℕ) * ulp) * (f.debt.toRat
        * growth (truncate (f.borrowApr.toRat + p.hostRate)) (p.slotsSince slot)) * c.toRat := by
      ring
    _ ≤ e.debt.toRat * c.toRat := mul_le_mul_of_nonneg_right grown c_nonneg

end Lending.Pool
