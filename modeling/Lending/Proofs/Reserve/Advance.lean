/-
  Lending.Proofs.Reserve.Advance — a pool at two slots, one after the other.

  As slots pass, neither the debt nor the index of the borrowers shrinks
  (`Reserve.Accrues.debtGrows`): both are a figure of the account times a growth factor, and
  the factor only grows with the number of slots (`Interest.growth_slots_mono`). That holds for
  the cut results themselves, since no cut reverses an order. Up to the slot of the last refresh
  both are the figures of the account.
-/
import Lending.Proofs.Interest.Slots
import Lending.Proofs.Reserve.BorrowIndex

namespace Lending

open Interest Outcome Truncation

/-- An opened reserve with fields that are not negative, whose borrowers pay a rate that is not
    negative and, with the host rate, at most six times the number of slots in a year. -/
structure Reserve.Accrues (r : Reserve) : Prop where
  opened : r.toPool.openReserve = .ok r
  limbs : ∀ limb ∈ r.account.liquidity.cumulativeBorrowRateLimbs, 0 ≤ limb
  host : 0 ≤ r.config.hostFixedInterestRateBps
  borrowFactor : 0 ≤ r.config.borrowFactorPct
  price : 0 ≤ r.oraclePrice.toRat
  rate : ∀ apr, r.borrowApr = .ok apr →
    0 ≤ apr.toRat ∧ truncate (apr.toRat + r.hostRate) ≤ 6 * slotsPerYear

namespace Pool

theorem slotsSince_mono (p : Pool) {s₁ s₂ : ℤ} (le : s₁ ≤ s₂) :
    p.slotsSince s₁ ≤ p.slotsSince s₂ := by
  unfold slotsSince
  omega

theorem hostRate_nonneg {p : Pool} (host : 0 ≤ p.config.hostFixedInterestRateBps) :
    0 ≤ p.hostRate :=
  truncate_nonneg (div_nonneg (by exact_mod_cast host) (by norm_num))

/-- The figures of a pool at two slots and as they are stored. Only an overflow can keep one
    from being given. -/
structure DebtGrows (p : Pool) (s₁ s₂ bps : ℤ) : Prop where
  debt_given : (p.debtAndSupplyAt s₁ bps).OverflowOnly ∧ (p.debtAndSupplyAt s₂ bps).OverflowOnly
  debt : ∀ stored e₁ e₂, p.borrowed = .ok stored → p.debtAndSupplyAt s₁ bps = .ok e₁ →
    p.debtAndSupplyAt s₂ bps = .ok e₂ →
    stored.toRat ≤ e₁.debt.toRat ∧ e₁.debt.toRat ≤ e₂.debt.toRat
  index_given : (p.cumulativeBorrowRateAt s₁).OverflowOnly ∧
    (p.cumulativeBorrowRateAt s₂).OverflowOnly
  index : ∀ stored i₁ i₂, p.cumulativeBorrowRate = .ok stored →
    p.cumulativeBorrowRateAt s₁ = .ok i₁ → p.cumulativeBorrowRateAt s₂ = .ok i₂ →
    stored.toRat ≤ i₁.toRat ∧ i₁.toRat ≤ i₂.toRat

/-- A figure of the account that grows, cut, is between the figure and what it grows to later. -/
theorem grown_mem {x rate : ℚ} {n₁ n₂ : ℤ} (exact : Representable x) (x_nonneg : 0 ≤ x)
    (nonneg : 0 ≤ rate) (high : rate ≤ 6 * slotsPerYear) (hn : 0 ≤ n₁) (le : n₁ ≤ n₂) :
    x ≤ truncate (x * growth rate n₁) ∧
      truncate (x * growth rate n₁) ≤ truncate (x * growth rate n₂) := by
  constructor
  · exact exact.le_truncate (le_mul_of_one_le_right x_nonneg (one_le_growth nonneg hn))
  · refine truncate_mono (mul_le_mul_of_nonneg_left ?_ x_nonneg)
    exact growth_slots_mono nonneg high hn le

end Pool

theorem Reserve.Accrues.debtGrows {r : Reserve} (h : r.Accrues) {s₁ s₂ : ℤ} (le : s₁ ≤ s₂)
    (bps : ℤ) : r.toPool.DebtGrows s₁ s₂ bps := by
  obtain ⟨f⟩ := Pool.figures_of_openReserve h.opened
  obtain ⟨apr_nonneg, both_high⟩ := h.rate f.borrowApr f.borrowApr_eq
  have host_nonneg := Pool.hostRate_nonneg h.host
  have indexed : r.cumulativeBorrowRate.OverflowOnly :=
    ScaledFraction.decodeLimbs_overflowOnly h.limbs
  have slots_nonneg := r.toPool.slotsSince_nonneg s₁
  have slots_le := r.toPool.slotsSince_mono le
  refine ⟨⟨Pool.debtAndSupplyAt_overflowOnly f _ _, Pool.debtAndSupplyAt_overflowOnly f _ _⟩,
    ?_, ⟨Pool.cumulativeBorrowRateAt_overflowOnly f indexed _,
      Pool.cumulativeBorrowRateAt_overflowOnly f indexed _⟩, ?_⟩
  · intro stored e₁ e₂ hstored h₁ h₂
    cases f.borrowed_eq.symm.trans hstored
    rw [Pool.debt_value f h₁, Pool.debt_value f h₂]
    exact Pool.grown_mem f.representable_debt f.debt_nonneg
      (truncate_nonneg (add_nonneg apr_nonneg host_nonneg)) both_high slots_nonneg slots_le
  · intro stored i₁ i₂ hstored h₁ h₂
    rw [Pool.index_value f hstored h₁, Pool.index_value f hstored h₂]
    -- the index grows by the borrow rate alone, which is no higher
    have alone : f.borrowApr.toRat ≤ truncate (f.borrowApr.toRat + r.hostRate) :=
      f.representable_borrowApr.le_truncate (le_add_of_nonneg_right host_nonneg)
    exact Pool.grown_mem (ScaledFraction.representable_decode hstored)
      (ScaledFraction.decode_nonneg hstored) apr_nonneg (alone.trans both_high) slots_nonneg
      slots_le

end Lending
