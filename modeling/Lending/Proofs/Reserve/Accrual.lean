/-
  Lending.Proofs.Reserve.Accrual — the interest of a pool and how it is divided.

  `Accrued` gives each part of the compounded interest by its value. Under `Terms`, rates that
  are not negative and shares of at most one, the host's part and the net part are not
  negative and together at most what the debt grew by; the protocol's fee takes no more than
  all of the net part, and the referrers' no more than the protocol's. So the debt and both
  fee balances only grow (`compound_divides`).
-/
import Lending.Proofs.Interest.Growth
import Lending.Proofs.Reserve.Opened

namespace Lending.Pool

open Interest Outcome Truncation

structure Accrued (f : Figures p) (host share : Decimal) (slots : ℤ) (i : CompoundedInterest) :
    Prop where
  newDebt : i.newDebt.toRat =
    truncate (f.debt.toRat * growth (truncate (f.borrowApr.toRat + host.toRat)) slots)
  hostFee : i.hostFee.toRat =
    truncate (truncate (f.debt.toRat * growth host.toRat slots) - f.debt.toRat)
  netNewDebt : i.netNewDebt.toRat =
    truncate (truncate (i.newDebt.toRat - f.debt.toRat) - i.hostFee.toRat)
  protocolFee : i.protocolFee.toRat = truncate (i.netNewDebt.toRat * f.takeRate.toRat)
  referralRate : i.referralRate.toRat = truncate (f.takeRate.toRat * share.toRat)
  referralFees : i.referralFees.toRat = truncate (i.netNewDebt.toRat * i.referralRate.toRat)
  protocolFees : i.protocolFees.toRat =
    truncate (truncate (truncate (i.protocolFee.toRat + i.hostFee.toRat) - i.referralFees.toRat)
      + f.protocolFees.toRat)
  pendingReferralFees : i.pendingReferralFees.toRat =
    truncate (f.pendingReferrerFees.toRat + i.referralFees.toRat)

theorem compound_accrued {p : Pool} (f : p.Figures) {slots bps : ℤ} {i : CompoundedInterest}
    (h : p.compound slots bps = .ok i) :
    ∃ host share, p.fixedHostRate = .ok host ∧ shareOfBps bps = .ok share ∧
      Accrued f host share slots i := by
  unfold compound at h
  rw [f.borrowApr_eq, f.protocolTakeRate_eq, f.borrowed_eq, f.protocolFees_eq,
    f.pendingReferrerFees_eq] at h
  simp only [bind_eq_ok_iff] at h
  obtain ⟨_, ⟨⟩, _, ⟨⟩, share, hshare, host, hhost, rate, hrate, g, hg, hostG, hhostG, _, ⟨⟩,
    newDebt, hnewDebt, grown, hgrown, hostFee, hhostFee, interest, hinterest, net, hnet,
    fee, hfee, referralRate, hreferralRate, referral, hreferral, set, hset, accrued, haccrued,
    _, ⟨⟩, fees, hfees, _, ⟨⟩, pending, hpending, h⟩ := h
  cases h
  refine ⟨host, share, hhost, hshare, ?_, ?_, ?_, mul_value hfee, mul_value hreferralRate,
    mul_value hreferral, ?_, add_value hpending⟩
  · rw [mul_value hnewDebt, growthFactor_value hg, add_value hrate]
  · rw [sub_value hhostFee, mul_value hgrown, growthFactor_value hhostG]
  · rw [sub_value hnet, sub_value hinterest]
  · rw [add_value hfees, sub_value haccrued, add_value hset]

theorem compound_overflowOnly {p : Pool} (f : p.Figures) (slots bps : ℤ) :
    (p.compound slots bps).OverflowOnly := by
  unfold compound
  refine (OverflowOnly.of_eq f.borrowApr_eq).bind fun _ _ =>
    (OverflowOnly.of_eq f.protocolTakeRate_eq).bind fun _ _ =>
    (shareOfBps_overflowOnly bps).bind fun _ _ => (shareOfBps_overflowOnly _).bind fun _ _ =>
    (add_overflowOnly _ _).bind fun _ _ => (growthFactor_overflowOnly _ _).bind fun _ _ =>
    (growthFactor_overflowOnly _ _).bind fun _ _ => (OverflowOnly.of_eq f.borrowed_eq).bind
    fun _ _ => (mul_overflowOnly _ _).bind fun _ _ => (mul_overflowOnly _ _).bind fun _ _ =>
    (sub_overflowOnly _ _).bind fun _ _ => (sub_overflowOnly _ _).bind fun _ _ =>
    (sub_overflowOnly _ _).bind fun _ _ => (mul_overflowOnly _ _).bind fun _ _ =>
    (mul_overflowOnly _ _).bind fun _ _ => (mul_overflowOnly _ _).bind fun _ _ =>
    (add_overflowOnly _ _).bind fun _ _ => (sub_overflowOnly _ _).bind fun _ _ =>
    (OverflowOnly.of_eq f.protocolFees_eq).bind fun _ _ => (add_overflowOnly _ _).bind fun _ _ =>
    (OverflowOnly.of_eq f.pendingReferrerFees_eq).bind fun _ _ =>
    (add_overflowOnly _ _).bind fun _ _ => .pure _

theorem supplyAfter_value {p : Pool} (f : p.Figures) {i : CompoundedInterest} {s : Decimal}
    (h : p.supplyAfter i = .ok s) : s.toRat = supplyOf p.account.liquidity.availableAmount
      i.newDebt.toRat i.protocolFees.toRat f.referrerFees.toRat i.pendingReferralFees.toRat := by
  unfold supplyAfter at h
  rw [f.referrerFees_eq] at h
  simp only [bind_eq_ok_iff] at h
  obtain ⟨gross, hgross, rest, hrest, _, ⟨⟩, left, hleft, h⟩ := h
  rw [sub_value h, sub_value hleft, sub_value hrest, add_value hgross, available,
    Decimal.toRat_ofInt]
  rfl

theorem supplyAfter_overflowOnly {p : Pool} (f : p.Figures) (i : CompoundedInterest) :
    (p.supplyAfter i).OverflowOnly :=
  (add_overflowOnly _ _).bind fun _ _ => (sub_overflowOnly _ _).bind fun _ _ =>
    (OverflowOnly.of_eq f.referrerFees_eq).bind fun _ _ => (sub_overflowOnly _ _).bind fun _ _ =>
    sub_overflowOnly _ _

theorem debtAndSupplyAt_overflowOnly {p : Pool} (f : p.Figures) (slot bps : ℤ) :
    (p.debtAndSupplyAt slot bps).OverflowOnly := by
  unfold debtAndSupplyAt
  split
  · exact (OverflowOnly.of_eq f.borrowed_eq).bind fun _ _ =>
      (OverflowOnly.of_eq f.totalSupply_eq).bind fun _ _ => .pure _
  · exact (compound_overflowOnly f _ bps).bind fun _ _ =>
      (supplyAfter_overflowOnly f _).bind fun _ _ => .pure _

/-! ## Order -/

/-- Terms under which nobody pays or gets a negative part. -/
structure Terms (f : Figures p) (host share : Decimal) (slots : ℤ) : Prop where
  rate_nonneg : 0 ≤ f.borrowApr.toRat
  host_nonneg : 0 ≤ host.toRat
  host_exact : Representable host.toRat
  take_mem : 0 ≤ f.takeRate.toRat ∧ f.takeRate.toRat ≤ 1
  share_mem : 0 ≤ share.toRat ∧ share.toRat ≤ 1
  slots_nonneg : 0 ≤ slots

theorem terms_of_config {p : Pool} (f : p.Figures) {host share : Decimal} {slots bps : ℤ}
    (hhost : p.fixedHostRate = .ok host) (hshare : shareOfBps bps = .ok share)
    (rate : 0 ≤ f.borrowApr.toRat) (host_nonneg : 0 ≤ p.config.hostFixedInterestRateBps)
    (take : 0 ≤ p.config.protocolTakeRatePct ∧ p.config.protocolTakeRatePct ≤ 100)
    (referral : 0 ≤ bps ∧ bps ≤ 10000) (hn : 0 ≤ slots) : Terms f host share slots := by
  have host_value := shareOfBps_value hhost
  refine ⟨rate, ?_, host_value ▸ representable_truncate _, ?_, ?_, hn⟩
  · rw [host_value]
    exact truncate_nonneg (div_nonneg (by exact_mod_cast host_nonneg) (by norm_num))
  · rw [shareOfPercent_value f.protocolTakeRate_eq]
    exact truncate_share_mem (by exact_mod_cast take.1) (by exact_mod_cast take.2) (by norm_num)
  · rw [shareOfBps_value hshare]
    exact truncate_share_mem (by exact_mod_cast referral.1) (by exact_mod_cast referral.2)
      (by norm_num)

namespace Accrued

variable {p : Pool} {f : p.Figures} {host share : Decimal} {slots : ℤ} {i : CompoundedInterest}
  (a : Accrued f host share slots i) (t : Terms f host share slots)
include a t

theorem debt_le_newDebt : f.debt.toRat ≤ i.newDebt.toRat := by
  rw [a.newDebt]
  refine f.representable_debt.le_truncate (le_mul_of_one_le_right f.debt_nonneg ?_)
  exact one_le_growth (truncate_nonneg (add_nonneg t.rate_nonneg t.host_nonneg)) t.slots_nonneg

theorem hostFee_nonneg : 0 ≤ i.hostFee.toRat := by
  rw [a.hostFee]
  refine truncate_nonneg (sub_nonneg.mpr (f.representable_debt.le_truncate ?_))
  exact le_mul_of_one_le_right f.debt_nonneg (one_le_growth t.host_nonneg t.slots_nonneg)

/-- The host's part is what the host rate alone would have charged. -/
theorem hostFee_le : i.hostFee.toRat ≤ truncate (i.newDebt.toRat - f.debt.toRat) := by
  rw [a.hostFee, a.newDebt]
  refine truncate_mono (sub_le_sub_right (truncate_mono ?_) _)
  refine mul_le_mul_of_nonneg_left (growth_mono t.host_nonneg ?_ t.slots_nonneg) f.debt_nonneg
  exact t.host_exact.le_truncate (le_add_of_nonneg_left t.rate_nonneg)

theorem netNewDebt_nonneg : 0 ≤ i.netNewDebt.toRat := by
  rw [a.netNewDebt]
  exact truncate_nonneg (sub_nonneg.mpr (a.hostFee_le t))

theorem protocolFee_nonneg : 0 ≤ i.protocolFee.toRat := by
  rw [a.protocolFee]
  exact truncate_nonneg (mul_nonneg (a.netNewDebt_nonneg t) t.take_mem.1)

theorem protocolFee_le : i.protocolFee.toRat ≤ i.netNewDebt.toRat := by
  have net := a.netNewDebt_nonneg t
  rw [a.protocolFee]
  exact (truncate_le (mul_nonneg net t.take_mem.1)).trans (mul_le_of_le_one_right net t.take_mem.2)

theorem referralFees_nonneg : 0 ≤ i.referralFees.toRat := by
  rw [a.referralFees, a.referralRate]
  refine truncate_nonneg (mul_nonneg (a.netNewDebt_nonneg t) (truncate_nonneg ?_))
  exact mul_nonneg t.take_mem.1 t.share_mem.1

theorem referralFees_le : i.referralFees.toRat ≤ i.protocolFee.toRat := by
  rw [a.referralFees, a.protocolFee, a.referralRate]
  refine truncate_mono (mul_le_mul_of_nonneg_left ?_ (a.netNewDebt_nonneg t))
  exact (truncate_le (mul_nonneg t.take_mem.1 t.share_mem.1)).trans
    (mul_le_of_le_one_right t.take_mem.1 t.share_mem.2)

theorem referralFees_le_set :
    i.referralFees.toRat ≤ truncate (i.protocolFee.toRat + i.hostFee.toRat) := by
  have exact : Representable i.protocolFee.toRat := a.protocolFee ▸ representable_truncate _
  exact (a.referralFees_le t).trans
    (exact.le_truncate (le_add_of_nonneg_right (a.hostFee_nonneg t)))

theorem protocolFees_le : f.protocolFees.toRat ≤ i.protocolFees.toRat := by
  rw [a.protocolFees]
  refine f.representable_protocolFees.le_truncate (le_add_of_nonneg_left ?_)
  exact truncate_nonneg (sub_nonneg.mpr (a.referralFees_le_set t))

theorem pendingReferrerFees_le : f.pendingReferrerFees.toRat ≤ i.pendingReferralFees.toRat := by
  rw [a.pendingReferralFees]
  exact f.representable_pendingReferrerFees.le_truncate
    (le_add_of_nonneg_right (a.referralFees_nonneg t))

theorem netNewDebt_le :
    i.netNewDebt.toRat ≤ truncate (i.newDebt.toRat - f.debt.toRat) - i.hostFee.toRat := by
  rw [a.netNewDebt]
  exact truncate_le (sub_nonneg.mpr (a.hostFee_le t))

/-- Net part and host's part together, without a tolerance for the cuts. -/
theorem netNewDebt_add_hostFee_le :
    i.netNewDebt.toRat + i.hostFee.toRat ≤ i.newDebt.toRat - f.debt.toRat := by
  have grown := truncate_le (sub_nonneg.mpr (a.debt_le_newDebt t))
  linarith [a.netNewDebt_le t]

end Accrued

/-! ## The division -/

/-- A division of interest in which every part has its sign, no fee is above what it is taken
    from, and debt and fee balances only grow. -/
structure Divided (i : CompoundedInterest) (debt protocolFees pendingReferrerFees : Decimal) :
    Prop where
  debt_le : debt.toRat ≤ i.newDebt.toRat
  hostFee_nonneg : 0 ≤ i.hostFee.toRat
  referralFees_nonneg : 0 ≤ i.referralFees.toRat
  referralFees_le : i.referralFees.toRat ≤ i.protocolFee.toRat
  protocolFee_le : i.protocolFee.toRat ≤ i.netNewDebt.toRat
  fees_le : i.protocolFee.toRat + i.hostFee.toRat ≤ i.newDebt.toRat - debt.toRat
  protocolFees_le : protocolFees.toRat ≤ i.protocolFees.toRat
  pendingReferrerFees_le : pendingReferrerFees.toRat ≤ i.pendingReferralFees.toRat

theorem Accrued.divided {p : Pool} {f : p.Figures} {host share : Decimal} {slots : ℤ}
    {i : CompoundedInterest} (a : Accrued f host share slots i) (t : Terms f host share slots) :
    Divided i f.debt f.protocolFees f.pendingReferrerFees where
  debt_le := a.debt_le_newDebt t
  hostFee_nonneg := a.hostFee_nonneg t
  referralFees_nonneg := a.referralFees_nonneg t
  referralFees_le := a.referralFees_le t
  protocolFee_le := a.protocolFee_le t
  fees_le := by linarith [a.protocolFee_le t, a.netNewDebt_add_hostFee_le t]
  protocolFees_le := a.protocolFees_le t
  pendingReferrerFees_le := a.pendingReferrerFees_le t

/-- Interest is divided so over any number of slots; only one too large to be written is not
    given. -/
theorem compound_divides {p : Pool} {r : Reserve} {apr : Decimal} {slots bps : ℤ}
    (opened : p.openReserve = .ok r)
    (take : 0 ≤ r.config.protocolTakeRatePct ∧ r.config.protocolTakeRatePct ≤ 100)
    (rate : r.borrowApr = .ok apr) (rate_nonneg : 0 ≤ apr.toRat)
    (host : 0 ≤ r.config.hostFixedInterestRateBps) (referral : 0 ≤ bps ∧ bps ≤ 10000)
    (elapsed : 0 ≤ slots) :
    (r.compound slots bps).OverflowOnly ∧
      ∃ debt protocolFees pendingReferrerFees, r.borrowed = .ok debt ∧
        r.protocolFees = .ok protocolFees ∧ r.pendingReferrerFees = .ok pendingReferrerFees ∧
        ∀ i, r.compound slots bps = .ok i →
          Divided i debt protocolFees pendingReferrerFees := by
  have same := toPool_of_openReserve opened
  obtain ⟨f⟩ := figures_of_openReserve opened
  rw [← same] at f
  cases f.borrowApr_eq.symm.trans rate
  refine ⟨compound_overflowOnly f slots bps, _, _, _, f.borrowed_eq, f.protocolFees_eq,
    f.pendingReferrerFees_eq, fun i compounded => ?_⟩
  obtain ⟨hostRate, share, hhost, hshare, a⟩ := compound_accrued f compounded
  exact a.divided (terms_of_config f hhost hshare rate_nonneg host take referral elapsed)

theorem compound_divides_sample :
    (∃ i debt, Sample.reserve.compound 1000 1000 = .ok i ∧ Sample.reserve.borrowed = .ok debt ∧
      i.protocolFee.toRat + i.hostFee.toRat ≤ i.newDebt.toRat - debt.toRat) ∧
    (Sample.reserve.compound 1000 1000).OverflowOnly := by
  have given : (Sample.reserve.compound 1000 1000).isOk := by decide +kernel
  obtain ⟨i, compounded⟩ := exists_of_isOk given
  obtain ⟨only, debt, _, _, owed, -, -, divides⟩ :=
    @compound_divides _ _ _ 1000 1000 opened_sample (by decide)
      (by decide +kernel : Sample.reserve.borrowApr =
        .ok ⟨false, 8333337500002083334375000520833593750128, -41⟩)
      (by decide +kernel) (by decide) (by decide) (by decide)
  exact ⟨⟨i, debt, compounded, owed, (divides i compounded).fees_le⟩, only⟩

end Lending.Pool
