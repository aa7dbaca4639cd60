/-
  Lending.Proofs.Reserve.Standstill — over no slots, compounding leaves every figure as it is.

  Not after its last refresh a pool gives its stored figures without compounding. Compounding over
  no slots comes to the same: every factor is one, so the debt is the same number, and each part
  of the interest and each fee on it is nothing (`exists_compound_zero`). The debt and the fees
  are figures that survive a cut, so taking off and adding nothing keeps their values, and the
  supply that is put together again is the stored one (`StandsStill.exists_supplyAfter`). All that
  can go wrong is a rate too large to be written, which the short way does not look at
  (`Pool.GivesRates`). Settings as accounts store them give no such rate (`givesRates_of_stored`).
-/
import Lending.Proofs.Reserve.Accrual
import Lending.Proofs.Reserve.AsOf
import Lending.Proofs.Reserve.Openable

namespace Lending.Pool

open Interest Outcome Truncation

def GivesRates (p : Pool) (referralFeeBps : ℤ) : Prop :=
  ∃ apr take host share, p.borrowApr = .ok apr ∧ p.protocolTakeRate = .ok take ∧
    p.fixedHostRate = .ok host ∧ shareOfBps referralFeeBps = .ok share ∧
    (∃ rate, (apr + host : Outcome Decimal) = .ok rate) ∧
    ∃ referralRate, (take * share : Outcome Decimal) = .ok referralRate

/-- No interest: the debt is the same number, and so are, by value, the fees set aside. -/
structure StandsStill (f : Figures p) (i : CompoundedInterest) : Prop where
  newDebt : i.newDebt = f.debt
  netNewDebt : i.netNewDebt.toRat = 0
  protocolFee : i.protocolFee.toRat = 0
  hostFee : i.hostFee.toRat = 0
  referralFees : i.referralFees.toRat = 0
  protocolFees : i.protocolFees.toRat = f.protocolFees.toRat
  pendingReferralFees : i.pendingReferralFees.toRat = f.pendingReferrerFees.toRat

variable {p : Pool} (f : p.Figures)

theorem Figures.debt_result : f.debt.Result := ScaledFraction.decode_result f.borrowed_eq

theorem Figures.protocolFees_result : f.protocolFees.Result :=
  ScaledFraction.decode_result f.protocolFees_eq

theorem Figures.referrerFees_result : f.referrerFees.Result :=
  ScaledFraction.decode_result f.referrerFees_eq

theorem Figures.pendingReferrerFees_result : f.pendingReferrerFees.Result :=
  ScaledFraction.decode_result f.pendingReferrerFees_eq

/-- With its rates given, compounding over no slots goes through. -/
theorem exists_compound_zero {bps : ℤ} (given : p.GivesRates bps) :
    ∃ i, p.compound 0 bps = .ok i ∧ StandsStill f i := by
  obtain ⟨_, _, host, share, hapr, htake, hhost, hshare, ⟨rate, hrate⟩, referralRate, hreferral⟩ :=
    given
  cases f.borrowApr_eq.symm.trans hapr
  cases f.protocolTakeRate_eq.symm.trans htake
  have same_debt := f.debt_result.mul_one_eq
  obtain ⟨none, hnone, none_zero⟩ := f.debt_result.exists_sub_self
  have none_result := sub_result hnone
  obtain ⟨net, hnet, net_zero⟩ := none_result.exists_sub_zero none_zero
  rw [none_zero] at net_zero
  obtain ⟨fee, hfee, fee_zero⟩ := exists_zero_mul net_zero f.takeRate
  obtain ⟨referral, hreferralFees, referral_zero⟩ := exists_zero_mul net_zero referralRate
  obtain ⟨set, hset, set_zero⟩ := (mul_result hfee).2.exists_add_zero none_zero
  obtain ⟨accrued, haccrued, accrued_zero⟩ := (add_result hset).exists_sub_zero referral_zero
  rw [set_zero, fee_zero] at accrued_zero
  obtain ⟨fees, hfees, same_fees⟩ := f.protocolFees_result.exists_zero_add accrued_zero
  obtain ⟨pending, hpending, same_pending⟩ :=
    f.pendingReferrerFees_result.exists_add_zero referral_zero
  refine ⟨⟨f.debt, net, fee, none, referralRate, referral, fees, pending⟩, ?_,
    rfl, net_zero, fee_zero, none_zero, referral_zero, same_fees, same_pending⟩
  unfold compound
  rw [hapr, htake, hshare, hhost, f.borrowed_eq, f.protocolFees_eq, f.pendingReferrerFees_eq]
  simp only [bind_eq_ok_iff]
  exact ⟨_, rfl, _, rfl, _, rfl, _, rfl, rate, hrate, 1, growthFactor_zero (add_result hrate), 1,
    growthFactor_zero (div_result hhost), _, rfl, _, same_debt, _, same_debt, none, hnone, none,
    hnone, net, hnet, fee, hfee, referralRate, hreferral, referral, hreferralFees, set, hset,
    accrued, haccrued, _, rfl, fees, hfees, _, rfl, pending, hpending, rfl⟩

include f in
/-- Nothing else keeps the interest of no slots from being given. -/
theorem exists_compound_zero_iff {bps : ℤ} :
    (∃ i, p.compound 0 bps = .ok i) ↔ p.GivesRates bps := by
  constructor
  · rintro ⟨i, h⟩
    unfold compound at h
    simp only [bind_eq_ok_iff] at h
    obtain ⟨apr, hapr, take, htake, share, hshare, host, hhost, rate, hrate, _, -, _, -, _, -, _, -,
      _, -, _, -, _, -, _, -, _, -, referralRate, hreferral, -⟩ := h
    exact ⟨apr, take, host, share, hapr, htake, hhost, hshare, ⟨rate, hrate⟩, referralRate,
      hreferral⟩
  · intro given
    obtain ⟨i, h, -⟩ := exists_compound_zero f given
    exact ⟨i, h⟩

theorem standsStill_of_compound {bps : ℤ} {i : CompoundedInterest}
    (h : p.compound 0 bps = .ok i) : StandsStill f i := by
  obtain ⟨i', given, still⟩ := exists_compound_zero f ((exists_compound_zero_iff f).mp ⟨i, h⟩)
  cases h.symm.trans given
  exact still

structure StoresRates (p : Pool) (referralFeeBps : ℤ) : Prop where
  curve : ∀ c ∈ p.config.borrowRateCurve, c.Stored
  takeRate : |p.config.protocolTakeRatePct| ≤ 2 ^ 128
  hostRate : |p.config.hostFixedInterestRateBps| ≤ 2 ^ 128
  referralFee : |referralFeeBps| ≤ 2 ^ 128

include f in
theorem givesRates_of_stored {bps : ℤ} (stored : p.StoresRates bps) : p.GivesRates bps := by
  obtain ⟨take, htake, take_le⟩ := exists_shareOf_le stored.takeRate (by decide : (1 : ℤ) ≤ 100)
  obtain ⟨host, hhost, host_le⟩ :=
    exists_shareOf_le stored.hostRate (by decide : (1 : ℤ) ≤ fullShareBps)
  obtain ⟨share, hshare, share_le⟩ :=
    exists_shareOf_le stored.referralFee (by decide : (1 : ℤ) ≤ fullShareBps)
  have apr_le := borrowApr_le stored.curve f.borrowApr_eq
  -- room for the product of two numbers of 128 bits, and so for all the others
  have room : (2 : ℚ) ^ 128 * 2 ^ 128 < Decimal.limit / 2 := by
    refine lt_of_lt_of_le ?_ (Decimal.zpow_le_half_limit (e := 78) (by decide))
    norm_num
  obtain ⟨rate, hrate⟩ := exists_add (x := f.borrowApr) (y := host)
    (apr_le.trans_lt (lt_trans (by norm_num [highestRate]) room))
    (host_le.trans_lt (lt_trans (by norm_num) room))
  obtain ⟨referralRate, hreferralRate⟩ := exists_mul (x := take) (y := share) (by
    rw [abs_mul]
    calc |take.toRat| * |share.toRat| ≤ 2 ^ 128 * 2 ^ 128 :=
          mul_le_mul take_le share_le (abs_nonneg _) (by positivity)
      _ < Decimal.limit := room.trans (half_lt_self Decimal.limit_pos))
  exact ⟨f.borrowApr, take, host, share, f.borrowApr_eq, htake, hhost, hshare, ⟨rate, hrate⟩,
    referralRate, hreferralRate⟩

/-- The supply that is put together from the compounded figures is the stored one. -/
theorem StandsStill.exists_supplyAfter {f : p.Figures} {i : CompoundedInterest}
    (still : StandsStill f i) :
    ∃ supply, p.supplyAfter i = .ok supply ∧ supply.toRat = f.supply.toRat := by
  have total := f.totalSupply_eq
  unfold totalSupply at total
  rw [f.borrowed_eq, f.protocolFees_eq, f.referrerFees_eq, f.pendingReferrerFees_eq] at total
  simp only [bind_eq_ok_iff] at total
  obtain ⟨_, ⟨⟩, gross, hgross, _, ⟨⟩, rest, hrest, _, ⟨⟩, left, hleft, _, ⟨⟩, hsupply⟩ := total
  obtain ⟨rest', hrest', same_rest⟩ := exists_sub_congr rfl still.protocolFees.symm
    (add_result hgross).size f.protocolFees_result.size hrest
  obtain ⟨left', hleft', same_left⟩ := exists_sub_congr same_rest rfl
    (sub_result hrest).size f.referrerFees_result.size hleft
  obtain ⟨supply, given, same⟩ := exists_sub_congr same_left still.pendingReferralFees.symm
    (sub_result hleft).size f.pendingReferrerFees_result.size hsupply
  refine ⟨supply, ?_, same.symm⟩
  unfold supplyAfter
  rw [f.referrerFees_eq, still.newDebt]
  simp only [bind_eq_ok_iff]
  exact ⟨gross, hgross, rest', hrest', _, rfl, left', hleft', given⟩

theorem protocolFeesAt_of_not_later {slot : ℤ} (not_later : slot ≤ p.account.lastUpdate.slot)
    (bps : ℤ) : p.protocolFeesAt slot bps = .ok ⟨f.protocolFees, 0, 0⟩ := by
  unfold protocolFeesAt
  rw [if_pos (slotsSince_of_not_later not_later), f.protocolFees_eq]
  rfl

/-- Not after the last refresh, the short way and compounding over no slots give the same debt,
    supply and fees: the stored ones. Compounding goes through whenever the settings are as
    accounts store them. -/
theorem shortcuts_compound {p : Pool} {r : Reserve} (opened : p.openReserve = .ok r) {slot : ℤ}
    (not_later : slot ≤ r.account.lastUpdate.slot) (bps : ℤ) :
    ∃ debt supply fees, r.borrowed = .ok debt ∧ r.totalSupply = .ok supply ∧
      r.protocolFees = .ok fees ∧ r.debtAndSupplyAt slot bps = .ok ⟨debt, supply⟩ ∧
      r.protocolFeesAt slot bps = .ok ⟨fees, 0, 0⟩ ∧
      (r.compound 0 bps).OverflowOnly ∧
      ((∃ i, r.compound 0 bps = .ok i) ↔ r.GivesRates bps) ∧
      (r.StoresRates bps → ∃ i, r.compound 0 bps = .ok i) ∧
      ∀ i, r.compound 0 bps = .ok i →
        i.newDebt.toRat = debt.toRat ∧
        (∃ s, r.supplyAfter i = .ok s ∧ s.toRat = supply.toRat) ∧
        i.protocolFees.toRat = fees.toRat ∧ i.protocolFee.toRat = 0 ∧ i.hostFee.toRat = 0 := by
  have same := toPool_of_openReserve opened
  obtain ⟨f⟩ := figures_of_openReserve opened
  rw [← same] at f
  refine ⟨f.debt, f.supply, f.protocolFees, f.borrowed_eq, f.totalSupply_eq, f.protocolFees_eq,
    debtAndSupplyAt_of_not_later not_later f bps, protocolFeesAt_of_not_later f not_later bps,
    compound_overflowOnly f 0 bps, exists_compound_zero_iff f,
    fun stored => (exists_compound_zero_iff f).mpr (givesRates_of_stored f stored),
    fun i compounded => ?_⟩
  have still := standsStill_of_compound f compounded
  exact ⟨by rw [still.newDebt], still.exists_supplyAfter, still.protocolFees, still.protocolFee,
    still.hostFee⟩

open Sample in
theorem storesRates_sample : reserve.StoresRates 1000 := by
  refine ⟨fun c listed => ?_, by decide, by decide, by decide⟩
  have point : ∀ c ∈ reserve.config.borrowRateCurve, (0 ≤ c.utilizationBps ∧
    c.utilizationBps < 2 ^ 128) ∧ 0 ≤ c.borrowRateBps ∧ c.borrowRateBps < 2 ^ 32 := by decide
  obtain ⟨⟨nonneg, lt⟩, rate⟩ := point c listed
  exact ⟨isWord_of_lt nonneg lt, rate⟩

theorem shortcuts_compound_sample :
    ∃ debt supply i s, Sample.reserve.debtAndSupplyAt 1000 1000 = .ok ⟨debt, supply⟩ ∧
      Sample.reserve.compound 0 1000 = .ok i ∧ Sample.reserve.supplyAfter i = .ok s ∧
      i.newDebt.toRat = debt.toRat ∧ s.toRat = supply.toRat := by
  obtain ⟨debt, supply, fees, -, -, -, estimate, -, -, -, gives, same⟩ :=
    @shortcuts_compound _ _ opened_sample 1000 (by decide) 1000
  obtain ⟨i, compounded⟩ := gives storesRates_sample
  obtain ⟨same_debt, ⟨s, after, same_supply⟩, -⟩ := same i compounded
  exact ⟨debt, supply, i, s, estimate, compounded, after, same_debt, same_supply⟩

end Lending.Pool
