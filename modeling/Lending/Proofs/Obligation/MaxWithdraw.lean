/-
  Lending.Proofs.Obligation.MaxWithdraw — the largest withdrawal, made.

  What is spare of the limit becomes an amount by one chain of factors, a margin among them,
  and the withdrawal takes from the limit by the inverse factors in reverse
  (`Pool.withdrawSteps`, `Pool.backingSteps`), at the same loan-to-value
  (`withdrawLtv_eq_terms`). So it takes no more than was spare (`Withdrawal.taken_le`). At a
  loan-to-value of zero it takes nothing, and below zero nothing is offered. The amount is
  bounded by the deposit, by what the pool has and by its cap; no bound below zero counts, as
  an amount is never less than nothing (`maxWithdraw_floor`).
-/
import Lending.Obligation.Limits
import Lending.Proofs.Obligation.Headroom
import Lending.Proofs.Obligation.Step
import Lending.Proofs.Reserve.Limits

namespace Lending

open Outcome Truncation

def Pool.withdrawSteps (p : Pool) (ltv factor : Decimal) : List ℚ :=
  [ltv.toRat⁻¹, Obligation.withdrawMargin.toRat, p.oraclePrice.toRat⁻¹, factor.toRat]

def Pool.backingSteps (p : Pool) (ltv factor : Decimal) : List ℚ :=
  p.dollarSteps factor ++ [ltv.toRat]

theorem withdrawMargin_value : Obligation.withdrawMargin.toRat = 995 / 1000 := by
  rw [Decimal.toRat_eq]
  norm_num [Obligation.withdrawMargin, Decimal.unit]

theorem Pool.prod_withdrawSteps {p : Pool} {ltv factor : Decimal} (hp : p.oraclePrice.toRat ≠ 0)
    (hf : factor.toRat ≠ 0) :
    (p.withdrawSteps ltv factor ++ p.dollarSteps factor).prod = 995 / 1000 / ltv.toRat := by
  simp only [withdrawSteps, dollarSteps, List.prod_append, List.prod_cons, List.prod_nil,
    withdrawMargin_value]
  field_simp

theorem Pool.withdrawSteps_nonneg {p : Pool} {ltv factor : Decimal} (hl : 0 ≤ ltv.toRat)
    (hp : 0 ≤ p.oraclePrice.toRat) (hf : 0 ≤ factor.toRat) :
    ∀ step ∈ p.withdrawSteps ltv factor, 0 ≤ step := by
  simp [withdrawSteps, withdrawMargin_value, hl, hp, hf]
  norm_num

namespace Obligation

/-! ## What bounds a withdrawal -/

structure Withdrawal (o : Obligation) (m : Market) (slot : ℤ) (r : Reserve) (position : Position)
    (x ltv power payable : Decimal) : Prop where
  ltv_eq : o.withdrawLtv m r = .ok ltv
  power_eq : o.withdrawPower r ltv position.amount = .ok power
  payable_eq : r.withinOutflow r.config.depositOutflow
    (min (min position.amount power) r.available) slot = .ok payable
  amount : x = max 0 payable

/-- Without debt all of the deposit can go; at the limit nothing can. -/
theorem maxWithdraw_cases {o : Obligation} {m : Market} {mint : String} {slot : ℤ} {r : Reserve}
    {x : Decimal} (found : m.reserveOfMint mint = .ok r)
    (h : o.maxWithdraw m mint slot = .ok x) :
    ∃ position, o.deposits.find? r.address = some position ∧
      (o.stats.weightedBorrow.toRat = 0 ∧ x = position.amount ∨
        o.stats.weightedBorrow.toRat ≠ 0 ∧
          o.stats.borrowLimit.toRat ≤ o.stats.weightedBorrow.toRat ∧ x = 0 ∨
        o.stats.weightedBorrow.toRat ≠ 0 ∧
          o.stats.weightedBorrow.toRat < o.stats.borrowLimit.toRat ∧
          ∃ ltv power payable, o.Withdrawal m slot r position x ltv power payable) := by
  unfold maxWithdraw at h
  rw [found] at h
  obtain ⟨_, ⟨⟩, h⟩ := bind_eq_ok_iff.mp h
  obtain ⟨position, hposition, h⟩ := bind_eq_ok_iff.mp h
  refine ⟨position, ofOption_eq_ok_iff.mp hposition, ?_⟩
  split at h
  · rename_i none
    cases h
    exact .inl ⟨(Decimal.isZero_iff _).mp none, rfl⟩
  rename_i some
  have debt := mt (Decimal.isZero_iff _).mpr some
  obtain ⟨ltv, hltv, h⟩ := bind_eq_ok_iff.mp h
  split at h
  · rename_i used
    cases h
    exact .inr (.inl ⟨debt, (Decimal.le_iff _ _).mp used, rfl⟩)
  · rename_i spare
    simp only [bind_eq_ok_iff] at h
    obtain ⟨power, hpower, payable, hpayable, h⟩ := h
    cases h
    refine .inr (.inr ⟨debt, ?_, ltv, power, payable, hltv, hpower, hpayable, rfl⟩)
    rw [Decimal.le_iff, not_le] at spare
    exact spare

theorem withdrawPower_steps {o : Obligation} {r : Reserve} {ltv deposited power : Decimal}
    (h : o.withdrawPower r ltv deposited = .ok power) (nonzero : ltv.toRat ≠ 0) :
    ∃ factor, r.mintFactor = .ok factor ∧
      power.toRat = scaleBy (r.withdrawSteps ltv factor) o.spareLimit := by
  unfold withdrawPower at h
  rw [if_neg (mt (Decimal.isZero_iff _).mp nonzero)] at h
  simp only [bind_eq_ok_iff] at h
  obtain ⟨spare, hspare, backed, hbacked, value, hvalue, whole, hwhole, factor, hfactor, h⟩ := h
  refine ⟨factor, hfactor, ?_⟩
  rw [mul_value h, (div_value hwhole).2, mul_value hvalue, (div_value hbacked).2,
    sub_value hspare, div_eq_mul_inv, div_eq_mul_inv]
  rfl

/-- A simulated withdrawal is judged by the loan-to-value that the largest one was worked out
    with. -/
theorem withdrawLtv_eq_terms {o : Obligation} {m : Market} {r : Reserve}
    {terms : CollateralTerms} (admitted : o.Admits r)
    (h : m.collateralTerms o.elevationGroup r = .ok terms) :
    o.withdrawLtv m r = .ok terms.loanToValue := by
  unfold withdrawLtv groupIncludes
  unfold Market.collateralTerms at h
  by_cases none : o.elevationGroup = 0
  · rw [if_pos none] at h
    cases h
    rw [if_neg (by simp [none])]
    rfl
  · have listed : r.elevationGroups.contains o.elevationGroup := admitted.resolve_left none
    rw [if_neg none] at h
    simp only [bind_eq_ok_iff] at h
    obtain ⟨g, hg, ltv, hltv, threshold, -, h⟩ := h
    cases h
    rw [if_pos (by simp [none] at listed ⊢; exact listed), hg]
    exact hltv

section
variable {o : Obligation} {m : Market} {mint : String} {slot : ℤ} {r : Reserve}
  {position : Position} {x ltv power payable : Decimal} {q : ObligationRequest} {s : Scenario}

/-- What a simulated withdrawal makes of the limit; the debt stays. -/
theorem simulated_withdrawal (found : m.reserveOfMint mint = .ok r)
    (asks : q.Asks .withdraw x mint) (h : o.simulate m q = .ok s) :
    ∃ ltv factor, o.withdrawLtv m r = .ok ltv ∧ r.mintFactor = .ok factor ∧ factor.toRat ≠ 0 ∧
      s.stats.weightedBorrow = o.stats.weightedBorrow ∧
      s.stats.borrowLimit.toRat = moved o.stats.borrowLimit.toRat
        (-scaleBy (r.backingSteps ltv factor) (truncate x.toRat)) := by
  obtain ⟨out, once, negated, leg, weighted, limit⟩ := simulate_withdraw asks h
  obtain ⟨own, terms, value, changed, step⟩ := addDeposit_step leg
  cases found.symm.trans step.reserve_eq
  obtain ⟨factor, hfactor, nonzero, dollars⟩ := Pool.valueOf_steps step.value_eq
  refine ⟨terms.loanToValue, factor, withdrawLtv_eq_terms step.admitted step.terms_eq, hfactor,
    nonzero, weighted.trans step.weightedBorrow, ?_⟩
  rw [limit, step.borrowLimit, dollars, negated_value negated, ← scaleBy_append_singleton,
    scaleBy_neg]
  rfl

section
variable (fit : o.Withdrawal m slot r position x ltv power payable)
include fit

theorem Withdrawal.le_bounds : 0 ≤ x.toRat ∧ x.toRat ≤ max 0 position.amount.toRat ∧
    x.toRat ≤ max 0 power.toRat ∧
    x.toRat ≤ max 0 (r.account.liquidity.availableAmount : ℚ) ∧
    (0 < r.config.depositOutflow.capacity →
      x.toRat ≤ max 0 (truncate (r.capRemainder r.config.depositOutflow slot))) := by
  obtain ⟨payable_le, within_cap⟩ := Pool.withinOutflow_bounds fit.payable_eq
  rw [Decimal.toRat_min, Decimal.toRat_min, Pool.available, Decimal.toRat_ofInt] at payable_le
  have value : x.toRat = max 0 payable.toRat := by
    rw [fit.amount, Decimal.toRat_max, Decimal.toRat_zero]
  rw [value]
  refine ⟨le_max_left _ _, max_le_max le_rfl ?_, max_le_max le_rfl ?_, max_le_max le_rfl ?_,
    fun limited => max_le_max le_rfl (within_cap limited)⟩
  · exact payable_le.trans ((min_le_left _ _).trans (min_le_left _ _))
  · exact payable_le.trans ((min_le_left _ _).trans (min_le_right _ _))
  · exact payable_le.trans (min_le_right _ _)

/-- At a loan-to-value below zero no amount is offered. -/
theorem Withdrawal.eq_zero {factor : Decimal} (price : 0 < r.oraclePrice.toRat)
    (hfactor : r.mintFactor = .ok factor) (negative : ltv.toRat < 0)
    (within : WithinLimit o.stats) : x.toRat = 0 := by
  obtain ⟨x_nonneg, -, x_le, -⟩ := fit.le_bounds
  obtain ⟨own, hown, power_steps⟩ := withdrawPower_steps fit.power_eq negative.ne
  cases hfactor.symm.trans hown
  have share : truncate (o.spareLimit * ltv.toRat⁻¹) ≤ 0 :=
    (le_truncate_of_nonpos (mul_nonpos_of_nonneg_of_nonpos (spareLimit_mem within).1
      (inv_nonpos.mpr negative.le))).2
  have rest_nonneg : ∀ step ∈ [withdrawMargin.toRat, r.oraclePrice.toRat⁻¹, factor.toRat],
      0 ≤ step := by
    intro step listed
    simp only [List.mem_cons, List.not_mem_nil, or_false] at listed
    rcases listed with rfl | rfl | rfl
    · rw [withdrawMargin_value]
      norm_num
    · exact inv_nonneg.mpr price.le
    · exact Pool.mintFactor_nonneg hfactor
  have power_nonpos : power.toRat ≤ 0 := by
    have below := scaleBy_mono_right rest_nonneg share
    rw [scaleBy_zero] at below
    rw [power_steps]
    exact below
  rw [max_eq_left power_nonpos] at x_le
  exact le_antisymm x_le x_nonneg

/-- At a loan-to-value above zero, the amount is worth what the margin leaves of the spare limit
    at most. -/
theorem Withdrawal.worth_le {factor : Decimal} (price : 0 < r.oraclePrice.toRat)
    (hfactor : r.mintFactor = .ok factor) (nonzero : factor.toRat ≠ 0) (positive : 0 < ltv.toRat)
    (within : WithinLimit o.stats) :
    scaleBy (r.dollarSteps factor) x.toRat ≤ o.spareLimit * (995 / 1000 / ltv.toRat) := by
  obtain ⟨x_nonneg, -, x_le, -⟩ := fit.le_bounds
  obtain ⟨spare_nonneg, -⟩ := spareLimit_mem within
  obtain ⟨own, hown, power_steps⟩ := withdrawPower_steps fit.power_eq positive.ne'
  cases hfactor.symm.trans hown
  have out := Pool.withdrawSteps_nonneg (p := r.toPool) positive.le price.le
    (Pool.mintFactor_nonneg hfactor)
  have dollars := Pool.dollarSteps_nonneg price.le hfactor
  have power_nonneg : 0 ≤ power.toRat := by
    rw [power_steps]
    exact scaleBy_nonneg out spare_nonneg
  rw [max_eq_right power_nonneg] at x_le
  calc scaleBy (r.dollarSteps factor) x.toRat
      ≤ scaleBy (r.dollarSteps factor) power.toRat := scaleBy_mono_right dollars x_le
    _ = scaleBy (r.withdrawSteps ltv factor ++ r.dollarSteps factor) o.spareLimit := by
        rw [power_steps, scaleBy_append]
    _ ≤ o.spareLimit * (r.withdrawSteps ltv factor ++ r.dollarSteps factor).prod :=
        scaleBy_le (List.forall_mem_append.mpr ⟨out, dollars⟩) spare_nonneg
    _ = o.spareLimit * (995 / 1000 / ltv.toRat) := by
        rw [Pool.prod_withdrawSteps price.ne' nonzero]

/-- What the largest withdrawal takes from the limit is spare. -/
theorem Withdrawal.taken_le {factor : Decimal} (price : 0 < r.oraclePrice.toRat)
    (hfactor : r.mintFactor = .ok factor) (nonzero : factor.toRat ≠ 0)
    (within : WithinLimit o.stats) :
    scaleBy (r.backingSteps ltv factor) (truncate x.toRat) ≤
      o.stats.borrowLimit.toRat - o.stats.weightedBorrow.toRat := by
  rcases lt_trichotomy ltv.toRat 0 with negative | none | positive
  · rw [fit.eq_zero price hfactor negative within, truncate_zero, scaleBy_zero]
    exact sub_nonneg.mpr within
  · -- the deposit backs nothing
    rw [Pool.backingSteps, scaleBy_append_singleton, none, mul_zero, truncate_zero]
    exact sub_nonneg.mpr within
  · obtain ⟨x_nonneg, -, -, -⟩ := fit.le_bounds
    obtain ⟨spare_nonneg, spare_le⟩ := spareLimit_mem within
    have dollars := Pool.dollarSteps_nonneg price.le hfactor
    have value_nonneg := scaleBy_nonneg dollars (truncate_nonneg x_nonneg)
    rw [Pool.backingSteps, scaleBy_append_singleton]
    calc truncate (scaleBy (r.dollarSteps factor) (truncate x.toRat) * ltv.toRat)
        ≤ scaleBy (r.dollarSteps factor) (truncate x.toRat) * ltv.toRat :=
          truncate_le (mul_nonneg value_nonneg positive.le)
      _ ≤ scaleBy (r.dollarSteps factor) x.toRat * ltv.toRat :=
          mul_le_mul_of_nonneg_right (scaleBy_mono_right dollars (truncate_le x_nonneg)) positive.le
      _ ≤ o.spareLimit * (995 / 1000 / ltv.toRat) * ltv.toRat :=
          mul_le_mul_of_nonneg_right (fit.worth_le price hfactor nonzero positive within) positive.le
      _ = o.spareLimit * (995 / 1000) := by
          rw [mul_assoc, div_mul_cancel₀ _ positive.ne']
      _ ≤ o.stats.borrowLimit.toRat - o.stats.weightedBorrow.toRat := by linarith

end

/-! ## The withdrawal made -/

/-- A largest withdrawal, beside the limit of the obligation and the bounds of the reserve. -/
structure WithdrawalFits (o : Obligation) (m : Market) (mint : String) (slot : ℤ) (r : Reserve)
    (x : Decimal) : Prop where
  safe : ∀ q s, q.Asks .withdraw x mint → o.simulate m q = .ok s → WithinLimit o.stats →
    WithinLimit s.stats
  bounds : o.stats.weightedBorrow.toRat ≠ 0 → 0 ≤ x.toRat ∧
    (∃ p, o.deposits.find? r.address = some p ∧ x.toRat ≤ p.amount.toRat) ∧
    x.toRat ≤ max 0 (r.account.liquidity.availableAmount : ℚ) ∧
    (0 < r.config.depositOutflow.capacity →
      x.toRat ≤ max 0 (r.capRemainder r.config.depositOutflow slot))

/-- A withdrawal that takes no more than is spare leaves the debt within the limit. -/
theorem withinLimit_of_taken {L W taken : ℚ} (W_exact : Representable W)
    (le : taken ≤ L - W) : W ≤ moved L (-taken) :=
  (W_exact.le_truncate (by linarith)).trans (le_max_left _ _)

end

/-- The largest withdrawal, once made, leaves the debt within the limit, whatever rounding did
    on the way; and it fits the bounds of the reserve. -/
theorem maxWithdraw_fits {o : Obligation} (valued : o.Valued)
    (held : ∀ p ∈ o.deposits.values, 0 ≤ p.amount.toRat) {m : Market} {mint : String} {r : Reserve}
    (found : m.reserveOfMint mint = .ok r) (price : 0 < r.oraclePrice.toRat) {slot : ℤ}
    {x : Decimal} (h : o.maxWithdraw m mint slot = .ok x) :
    o.WithdrawalFits m mint slot r x := by
  obtain ⟨position, there, cases⟩ := maxWithdraw_cases found h
  have amount_nonneg := held _ (AddressMap.mem_values_of_find? there)
  have weighted_exact := valued.representable_weightedBorrow
  refine ⟨fun q s asks simulated within => ?_, fun debt => ?_⟩
  · obtain ⟨ltv, factor, hltv, hfactor, nonzero, same_debt, after⟩ :=
      simulated_withdrawal found asks simulated
    unfold WithinLimit at within ⊢
    rw [same_debt, after]
    rcases cases with ⟨none, -⟩ | ⟨-, used, rfl⟩ | ⟨-, -, ownLtv, power, payable, fit⟩
    · rw [none]
      exact moved_nonneg _ _
    · refine withinLimit_of_taken weighted_exact ?_
      rw [Decimal.toRat_zero, truncate_zero, scaleBy_zero]
      exact sub_nonneg.mpr within
    · cases hltv.symm.trans fit.ltv_eq
      exact withinLimit_of_taken weighted_exact (fit.taken_le price hfactor nonzero within)
  · rcases cases with ⟨none, -⟩ | ⟨-, -, rfl⟩ | ⟨-, -, ltv, power, payable, fit⟩
    · exact absurd none debt
    · rw [Decimal.toRat_zero]
      exact ⟨le_rfl, ⟨position, there, amount_nonneg⟩, le_max_left _ _, fun _ => le_max_left _ _⟩
    · obtain ⟨nonneg, deposited, -, available, cap⟩ := fit.le_bounds
      rw [max_eq_right amount_nonneg] at deposited
      refine ⟨nonneg, ⟨position, there, deposited⟩, available, fun limited => ?_⟩
      exact (cap limited).trans (max_le (le_max_left _ _) (truncate_le_max _))

end Obligation

/-! ## Samples -/

namespace Sample

def overdrawn : Reserve :=
  let r := idle "reserve" "token" 6 1
  { r with account := { r.account with
      liquidity := { r.account.liquidity with availableAmount := -5 } } }

def overdrawnMarket : Market where
  address := "market"
  account := {}
  reserves := ⟨[("reserve", overdrawn)]⟩

def overdrawnOwner : Obligation where
  address := "obligation"
  account := {
    market := "market"
    owner := "owner"
    deposits := [{ reserve := "reserve", depositedAmount := 4000000 }]
    borrows := [
      { reserve := "reserve", cumulativeBorrowRateLimbs := [scale, 0, 0, 0],
        rawBorrowed := 1000000 * scale }] }
  deposits := ⟨[("reserve", ⟨"reserve", "token", ⟨false, 4, 6⟩, 4⟩)]⟩
  borrows := ⟨[("reserve", ⟨"reserve", "token", ⟨false, 1, 6⟩, 1⟩)]⟩
  stats := {
    totalDeposit := 4
    totalBorrow := 1
    weightedBorrow := 1
    borrowLimit := ⟨false, 32, -1⟩
    liquidationLimit := ⟨false, 34, -1⟩
    borrowUtilization := ⟨false, 3125, -4⟩
    netValue := 3
    loanToValue := ⟨false, 25, -2⟩
    liquidationLtv := ⟨false, 85, -2⟩
    leverage := ⟨false, 1333333333333333333333333333333333333333, -39⟩ }

end Sample

namespace Obligation

/-- A largest withdrawal that the debt bounds. -/
theorem maxWithdraw_fits_sample : ∃ x s,
    Sample.obligation.maxWithdraw Sample.market "token" 1000 = .ok x ∧
    Sample.obligation.simulate Sample.market (Sample.request "withdraw" x "token") = .ok s ∧
    Sample.obligation.stats.weightedBorrow.toRat ≠ 0 ∧ 0 < x.toRat ∧
    Sample.obligation.WithdrawalFits Sample.market "token" 1000 Sample.reserve x ∧
    WithinLimit Sample.obligation.stats ∧ WithinLimit s.stats := by
  have computed : Sample.obligation.maxWithdraw Sample.market "token" 1000 =
      .ok ⟨false, 273624801, -2⟩ := by decide +kernel
  obtain ⟨s, simulated⟩ := exists_of_isOk (show (Sample.obligation.simulate Sample.market
    (Sample.request "withdraw" ⟨false, 273624801, -2⟩ "token")).isOk by decide +kernel)
  have fits := maxWithdraw_fits valued_sample (by decide +kernel)
    (show Sample.market.reserveOfMint "token" = .ok Sample.reserve by decide +kernel)
    (by decide +kernel) computed
  have within : WithinLimit Sample.obligation.stats := by
    show Sample.obligation.stats.weightedBorrow.toRat ≤ Sample.obligation.stats.borrowLimit.toRat
    decide +kernel
  exact ⟨_, s, computed, simulated, by decide +kernel, by decide +kernel, fits, within,
    fits.safe _ s ⟨by decide, rfl, rfl⟩ simulated within⟩

/-- The least that is offered is nothing, which is more than an overdrawn reserve has. -/
theorem maxWithdraw_floor :
    Sample.overdrawnMarket.reserveOfMint "token" = .ok Sample.overdrawn ∧
    Sample.overdrawnOwner.Valued ∧
    (∀ p ∈ Sample.overdrawnOwner.deposits.values, 0 ≤ p.amount.toRat) ∧
    0 < Sample.overdrawn.oraclePrice.toRat ∧ Sample.overdrawnOwner.elevationGroup = 0 ∧
    Sample.overdrawnOwner.stats.weightedBorrow.toRat ≠ 0 ∧
    WithinLimit Sample.overdrawnOwner.stats ∧
    Sample.overdrawnOwner.maxWithdraw Sample.overdrawnMarket "token" 0 = .ok 0 ∧
    ¬ (0 : Decimal).toRat ≤ Sample.overdrawn.account.liquidity.availableAmount := by
  refine ⟨by decide +kernel, ⟨Sample.overdrawnMarket, none, some ⟨[("reserve", 1)]⟩,
    by decide +kernel⟩, by decide +kernel, by decide +kernel, rfl, by decide +kernel, ?_,
    by decide +kernel, by decide +kernel⟩
  show Sample.overdrawnOwner.stats.weightedBorrow.toRat ≤
    Sample.overdrawnOwner.stats.borrowLimit.toRat
  decide +kernel

end Obligation

end Lending
