/-
  Lending.Proofs.Reserve.Ledger — what is accrued is credited to somebody.

  The estimated supply is worked out from what is available and the new debt, less the fees;
  the interest is divided before that. Both are chains of steps that are cut one by one. No
  step loses more than a unit of the 40th digit of `turnover`, the sum of everything that is
  moved, because sums of figures are never so small that their digits are lost. So the
  ledger balances up to 4 units, and what suppliers are credited is the net interest less
  the protocol's fee up to 14, whatever the referrers get (`projection_balances`).
-/
import Lending.Proofs.Reserve.Accrual

namespace Lending.Pool

open Outcome Truncation

theorem supplyOf_error {A D P R Q : ℚ} (hA : OnGrid A) (hD : OnGrid D) (hP : OnGrid P)
    (hR : OnGrid R) (hQ : OnGrid Q) (A_nonneg : 0 ≤ A) (D_nonneg : 0 ≤ D) (P_nonneg : 0 ≤ P)
    (R_nonneg : 0 ≤ R) (Q_nonneg : 0 ≤ Q) :
    |supplyOf A D P R Q - (A + D - P - R - Q)| ≤ 4 * ulp * (A + D + P + R + Q) := by
  have step {x y bound : ℚ} (le : |x| ≤ bound) (nonneg : 0 ≤ y) : |truncate x - y| ≤ bound + y := by
    have less := abs_truncate_le x
    have split := abs_sub (truncate x) y
    rw [abs_of_nonneg nonneg] at split
    linarith
  have gross_le : |A + D| ≤ A + D := (abs_of_nonneg (add_nonneg A_nonneg D_nonneg)).le
  have protocol_le := step gross_le P_nonneg
  have referrers_le := step protocol_le R_nonneg
  have pending_le := step referrers_le Q_nonneg
  have gross := (hA.add hD).abs_truncate_sub_le
    (gross_le.trans (by linarith : A + D ≤ A + D + P + R + Q))
  have protocol := ((onGrid_truncate _).sub hP).abs_truncate_sub_le
    (protocol_le.trans (by linarith : A + D + P ≤ A + D + P + R + Q))
  have referrers := ((onGrid_truncate _).sub hR).abs_truncate_sub_le
    (referrers_le.trans (by linarith : A + D + P + R ≤ A + D + P + R + Q))
  have pending := ((onGrid_truncate _).sub hQ).abs_truncate_sub_le pending_le
  unfold supplyOf
  rw [abs_le] at gross protocol referrers pending ⊢
  constructor <;> linarith

namespace Accrued

variable {p : Pool} {f : p.Figures} {host share : Decimal} {slots : ℤ} {i : CompoundedInterest}

/-- What the debt grew by, less what both fee balances grew by, is the net interest less the
    protocol's fee: the host's part and the referrers' share cancel. -/
theorem credited_error (a : Accrued f host share slots i) (t : Terms f host share slots)
    {bound : ℚ}
    (le : i.newDebt.toRat + i.protocolFees.toRat + i.pendingReferralFees.toRat ≤ bound) :
    |(i.newDebt.toRat - f.debt.toRat) - (i.protocolFees.toRat - f.protocolFees.toRat)
      - (i.pendingReferralFees.toRat - f.pendingReferrerFees.toRat)
      - (i.netNewDebt.toRat - i.protocolFee.toRat)| ≤ 6 * ulp * bound := by
  have debt_nonneg := f.debt_nonneg
  have fees_nonneg := f.protocolFees_nonneg
  have pending_nonneg := f.pendingReferrerFees_nonneg
  have debt_le := a.debt_le_newDebt t
  have hostFee_nonneg := a.hostFee_nonneg t
  have hostFee_le := a.hostFee_le t
  have fee_nonneg := a.protocolFee_nonneg t
  have fee_le := a.protocolFee_le t
  have referral_nonneg := a.referralFees_nonneg t
  have referral_le := a.referralFees_le t
  have set_ge := a.referralFees_le_set t
  have fees_le := a.protocolFees_le t
  have pending_le := a.pendingReferrerFees_le t
  have interest_le := truncate_le (sub_nonneg.mpr debt_le)
  have net_le := a.netNewDebt_le t
  have set_le := truncate_le (add_nonneg fee_nonneg hostFee_nonneg)
  have accrued_le := truncate_le (sub_nonneg.mpr set_ge)
  have accrued_nonneg := truncate_nonneg (sub_nonneg.mpr set_ge)
  have newDebt_grid : OnGrid i.newDebt.toRat := a.newDebt ▸ onGrid_truncate _
  have hostFee_grid : OnGrid i.hostFee.toRat := a.hostFee ▸ onGrid_truncate _
  have fee_grid : OnGrid i.protocolFee.toRat := a.protocolFee ▸ onGrid_truncate _
  have referral_grid : OnGrid i.referralFees.toRat := a.referralFees ▸ onGrid_truncate _
  -- six cuts, each of a value between 0 and the bound
  have cut {v : ℚ} (grid : OnGrid v) (low : 0 ≤ v) (high : v ≤ bound) :=
    grid.abs_truncate_sub_le (abs_le.mpr ⟨by linarith, high⟩)
  have interest := cut (newDebt_grid.sub f.representable_debt.onGrid) (by linarith) (by linarith)
  have net := cut ((onGrid_truncate (i.newDebt.toRat - f.debt.toRat)).sub hostFee_grid)
    (by linarith) (by linarith)
  have set := cut (fee_grid.add hostFee_grid) (by linarith) (by linarith)
  have accrued := cut ((onGrid_truncate (i.protocolFee.toRat + i.hostFee.toRat)).sub referral_grid)
    (by linarith) (by linarith)
  have fees := cut ((onGrid_truncate _).add f.representable_protocolFees.onGrid)
    (add_nonneg accrued_nonneg fees_nonneg) (by linarith)
  have pending := cut (f.representable_pendingReferrerFees.onGrid.add referral_grid)
    (by linarith) (by linarith)
  rw [← a.netNewDebt] at net
  rw [← a.protocolFees] at fees
  rw [← a.pendingReferralFees] at pending
  rw [abs_le] at interest net set accrued fees pending ⊢
  constructor <;> linarith

/-- Both sides of the ledger, for an estimated supply and the one it grew from. -/
theorem ledger_error (a : Accrued f host share slots i) (t : Terms f host share slots)
    {available : ℤ} (nonneg : 0 ≤ available) :
    let estimated := supplyOf available i.newDebt.toRat i.protocolFees.toRat
      f.referrerFees.toRat i.pendingReferralFees.toRat
    let stale := supplyOf available f.debt.toRat f.protocolFees.toRat f.referrerFees.toRat
      f.pendingReferrerFees.toRat
    let turnover := available + i.newDebt.toRat + i.protocolFees.toRat + f.referrerFees.toRat
      + i.pendingReferralFees.toRat
    |estimated + i.protocolFees.toRat + f.referrerFees.toRat + i.pendingReferralFees.toRat
      - (available + i.newDebt.toRat)| ≤ 4 * ulp * turnover ∧
    |estimated - stale - (i.netNewDebt.toRat - i.protocolFee.toRat)| ≤ 14 * ulp * turnover := by
  intro estimated stale turnover
  have available_nonneg : (0 : ℚ) ≤ available := by exact_mod_cast nonneg
  have debt_nonneg := f.debt_nonneg
  have fees_nonneg := f.protocolFees_nonneg
  have referrers_nonneg := f.referrerFees_nonneg
  have pending_nonneg := f.pendingReferrerFees_nonneg
  have debt_le := a.debt_le_newDebt t
  have fees_le := a.protocolFees_le t
  have pending_le := a.pendingReferrerFees_le t
  have credited := a.credited_error t (by linarith : _ ≤ turnover)
  have projection : |estimated - (available + i.newDebt.toRat - i.protocolFees.toRat
      - f.referrerFees.toRat - i.pendingReferralFees.toRat)| ≤ 4 * ulp * turnover :=
    supplyOf_error (onGrid_intCast available) (a.newDebt ▸ onGrid_truncate _)
      (a.protocolFees ▸ onGrid_truncate _) f.representable_referrerFees.onGrid
      (a.pendingReferralFees ▸ onGrid_truncate _) available_nonneg (debt_nonneg.trans debt_le)
      (fees_nonneg.trans fees_le) referrers_nonneg (pending_nonneg.trans pending_le)
  have stored : |stale - (available + f.debt.toRat - f.protocolFees.toRat
      - f.referrerFees.toRat - f.pendingReferrerFees.toRat)| ≤ 4 * ulp * turnover := by
    refine (supplyOf_error (onGrid_intCast available) f.representable_debt.onGrid
      f.representable_protocolFees.onGrid f.representable_referrerFees.onGrid
      f.representable_pendingReferrerFees.onGrid available_nonneg debt_nonneg fees_nonneg
      referrers_nonneg pending_nonneg).trans ?_
    exact mul_le_mul_of_nonneg_left (by linarith) (by linarith [ulp_pos])
  rw [abs_le] at credited projection stored
  rw [abs_le, abs_le]
  refine ⟨⟨?_, ?_⟩, ?_, ?_⟩ <;> linarith

end Accrued

/-! ## Projections -/

/-- The sum of everything that a projection moves. -/
def turnover (p : Pool) (i : CompoundedInterest) (referrers : Decimal) : ℚ :=
  p.account.liquidity.availableAmount + i.newDebt.toRat + i.protocolFees.toRat + referrers.toRat
    + i.pendingReferralFees.toRat

theorem slotsSince_of_lt {p : Pool} {slot : ℤ} (later : p.account.lastUpdate.slot < slot) :
    p.slotsSince slot = slot - p.account.lastUpdate.slot :=
  max_eq_left (by omega)

theorem totalSupplyAt_eq_ok_iff {p : Pool} {slot bps : ℤ} {s : Decimal}
    (later : p.account.lastUpdate.slot < slot) :
    p.totalSupplyAt slot bps = .ok s ↔ ∃ i,
      p.compound (slot - p.account.lastUpdate.slot) bps = .ok i ∧ p.supplyAfter i = .ok s := by
  unfold totalSupplyAt debtAndSupplyAt
  rw [slotsSince_of_lt later, if_neg (by omega)]
  simp [bind_eq_ok_iff, pure, Except.pure]

theorem projection_error {p : Pool} (f : p.Figures) {slot bps : ℤ} {i : CompoundedInterest}
    {estimated : Decimal} (available : 0 ≤ p.account.liquidity.availableAmount)
    (take : 0 ≤ p.config.protocolTakeRatePct ∧ p.config.protocolTakeRatePct ≤ 100)
    (rate : 0 ≤ f.borrowApr.toRat) (host : 0 ≤ p.config.hostFixedInterestRateBps)
    (later : p.account.lastUpdate.slot < slot) (referral : 0 ≤ bps ∧ bps ≤ 10000)
    (compounded : p.compound (slot - p.account.lastUpdate.slot) bps = .ok i)
    (projected : p.totalSupplyAt slot bps = .ok estimated) :
    |estimated.toRat + i.protocolFees.toRat + f.referrerFees.toRat + i.pendingReferralFees.toRat
      - (p.account.liquidity.availableAmount + i.newDebt.toRat)|
      ≤ 4 * ulp * p.turnover i f.referrerFees ∧
    |estimated.toRat - f.supply.toRat - (i.netNewDebt.toRat - i.protocolFee.toRat)|
      ≤ 14 * ulp * p.turnover i f.referrerFees := by
  obtain ⟨hostRate, share, hhost, hshare, a⟩ := compound_accrued f compounded
  obtain ⟨_, again, after⟩ := (totalSupplyAt_eq_ok_iff later).mp projected
  cases compounded.symm.trans again
  have terms : Terms f hostRate share (slot - p.account.lastUpdate.slot) :=
    terms_of_config f hhost hshare rate host take referral (by omega)
  have both := a.ledger_error terms available
  rw [← supplyAfter_value f after, ← f.supply_value] at both
  exact both

/-- The ledger of a pool that is projected to a slot. Only an overflow keeps it from being
    projected. -/
structure Balances (p : Pool) (slot bps : ℤ) : Prop where
  compounds : (p.compound (slot - p.account.lastUpdate.slot) bps).OverflowOnly
  projects : (p.totalSupplyAt slot bps).OverflowOnly
  stored : (∃ stale, p.totalSupply = .ok stale) ∧ ∃ referrers, p.referrerFees = .ok referrers
  /-- Supply, fees and what is owed to referrers add up to what is available and owed. -/
  balance : ∀ i estimated referrers, p.compound (slot - p.account.lastUpdate.slot) bps = .ok i →
    p.totalSupplyAt slot bps = .ok estimated → p.referrerFees = .ok referrers →
    |estimated.toRat + i.protocolFees.toRat + referrers.toRat + i.pendingReferralFees.toRat
      - (p.account.liquidity.availableAmount + i.newDebt.toRat)|
      ≤ 1 / 10 ^ 38 * p.turnover i referrers
  /-- Suppliers are credited the net interest less the protocol's fee. -/
  credit : ∀ i estimated stale referrers,
    p.compound (slot - p.account.lastUpdate.slot) bps = .ok i →
    p.totalSupplyAt slot bps = .ok estimated → p.totalSupply = .ok stale →
    p.referrerFees = .ok referrers →
    |estimated.toRat - stale.toRat - (i.netNewDebt.toRat - i.protocolFee.toRat)|
      ≤ 1 / 10 ^ 37 * p.turnover i referrers

theorem projection_balances {p : Pool} {r : Reserve} {apr : Decimal} {slot bps : ℤ}
    (opened : p.openReserve = .ok r) (available : 0 ≤ r.account.liquidity.availableAmount)
    (take : 0 ≤ r.config.protocolTakeRatePct ∧ r.config.protocolTakeRatePct ≤ 100)
    (rate : r.borrowApr = .ok apr) (rate_nonneg : 0 ≤ apr.toRat)
    (host : 0 ≤ r.config.hostFixedInterestRateBps) (later : r.account.lastUpdate.slot < slot)
    (referral : 0 ≤ bps ∧ bps ≤ 10000) : r.Balances slot bps := by
  have same := toPool_of_openReserve opened
  obtain ⟨f⟩ := figures_of_openReserve opened
  rw [← same] at f
  cases f.borrowApr_eq.symm.trans rate
  have widen {x bound : ℚ} {k : ℕ} {unit : ℚ} (le : |x| ≤ k * ulp * bound) (positive : 0 < k)
      (few : k * ulp ≤ unit) : |x| ≤ unit * bound := by
    have bound_nonneg : 0 ≤ bound := by
      refine nonneg_of_mul_nonneg_right ((abs_nonneg x).trans le) ?_
      exact mul_pos (by exact_mod_cast positive) ulp_pos
    exact le.trans (mul_le_mul_of_nonneg_right few bound_nonneg)
  refine ⟨compound_overflowOnly f _ bps, ?_, ⟨⟨_, f.totalSupply_eq⟩, _, f.referrerFees_eq⟩, ?_, ?_⟩
  · exact (debtAndSupplyAt_overflowOnly f slot bps).bind fun _ _ => .pure _
  · intro i estimated referrers compounded projected hreferrers
    cases f.referrerFees_eq.symm.trans hreferrers
    obtain ⟨balance, -⟩ :=
      projection_error f available take rate_nonneg host later referral compounded projected
    exact widen (k := 4) balance (by norm_num) (by norm_num [ulp])
  · intro i estimated stale referrers compounded projected hstale hreferrers
    cases f.referrerFees_eq.symm.trans hreferrers
    cases f.totalSupply_eq.symm.trans hstale
    obtain ⟨-, credit⟩ :=
      projection_error f available take rate_nonneg host later referral compounded projected
    exact widen (k := 14) credit (by norm_num) (by norm_num [ulp])

theorem projection_balances_sample : Sample.reserve.Balances 2000 1000 ∧
    (Sample.reserve.totalSupplyAt 2000 1000).isOk = true :=
  ⟨projection_balances opened_sample (by decide) (by decide)
      (by decide +kernel : Sample.reserve.borrowApr =
        .ok ⟨false, 8333337500002083334375000520833593750128, -41⟩)
      (by decide +kernel) (by decide) (by decide) (by decide),
    by decide +kernel⟩

end Lending.Pool
