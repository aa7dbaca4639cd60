/-
  Lending.Proofs.Reserve.Payout — suppliers are paid what borrowers pay, less the take.

  The supply rate is the borrow rate on the part of the supply that is lent out, less the
  protocol's share. Three steps are cut on the way, a quotient and two products. So on the
  whole supply it pays no more than the borrow rate charges on the debt, less the take, and
  short of an underflow it falls behind by three units of the 40th digit at most (`PaysOut`).
  Whether more is lent out than there is does not matter.

  The rates after an action are worked out from the curve and the take that the reserve keeps,
  not from its settings. Opening it took both from there, so the same holds of them
  (`reserve_pays`).
-/
import Lending.Proofs.Reserve.Response

namespace Lending

open Outcome Truncation

/-! ## One payout -/

/-- What a supply rate pays on the supply is what a borrow rate charges on the debt, less what
    is not kept for the suppliers. -/
structure PaysOut (d : DebtAndSupply) (borrowApr supplyApr : Decimal) (kept : ℚ) : Prop where
  le : supplyApr.toRat * d.supply.toRat ≤ d.debt.toRat * borrowApr.toRat * kept
  ge : KeepsDigits [d.supply.toRat⁻¹, borrowApr.toRat, kept] d.debt.toRat →
    d.debt.toRat * borrowApr.toRat * kept * (1 - 1 / 10 ^ 38) ≤ supplyApr.toRat * d.supply.toRat

theorem paysOut_of_steps {d : DebtAndSupply} {u borrowApr paid kept supplyApr : Decimal}
    (stocked : 0 < d.supply.toRat) (owed : 0 ≤ d.debt.toRat) (rate : 0 ≤ borrowApr.toRat)
    (kept_nonneg : 0 ≤ kept.toRat) (used : d.utilization = .ok u)
    (charged : (u * borrowApr : Outcome Decimal) = .ok paid)
    (shared : (paid * kept : Outcome Decimal) = .ok supplyApr) :
    PaysOut d borrowApr supplyApr kept.toRat := by
  have value : supplyApr.toRat =
      scaleBy [d.supply.toRat⁻¹, borrowApr.toRat, kept.toRat] d.debt.toRat := by
    rw [mul_value shared, mul_value charged, DebtAndSupply.utilization_value stocked used,
      div_eq_mul_inv]
    rfl
  have steps_nonneg : ∀ step ∈ [d.supply.toRat⁻¹, borrowApr.toRat, kept.toRat], 0 ≤ step := by
    simp [stocked.le, rate, kept_nonneg]
  have product : d.debt.toRat * [d.supply.toRat⁻¹, borrowApr.toRat, kept.toRat].prod
      * d.supply.toRat = d.debt.toRat * borrowApr.toRat * kept.toRat := by
    have nonzero := stocked.ne'
    simp only [List.prod_cons, List.prod_nil]
    field_simp
  constructor
  · rw [value, ← product]
    exact mul_le_mul_of_nonneg_right (scaleBy_le steps_nonneg owed) stocked.le
  · intro digits
    have whole := mul_nonneg owed (List.prod_nonneg steps_nonneg)
    have near := (within_scaleBy (by simp) digits).ge whole
    rw [← value] at near
    rw [← product, mul_right_comm]
    refine mul_le_mul_of_nonneg_right (le_trans ?_ near) stocked.le
    rw [mul_comm]
    refine mul_le_mul_of_nonneg_right ?_ whole
    norm_num [ulp]

/-! ## The share that is kept -/

def Pool.keptShare (p : Pool) : ℚ := 1 - p.config.protocolTakeRatePct / 100

section
variable {p : Pool} (take : 0 ≤ p.config.protocolTakeRatePct ∧ p.config.protocolTakeRatePct ≤ 100)
include take

theorem Pool.keptShare_nonneg : 0 ≤ p.keptShare := by
  have le : (p.config.protocolTakeRatePct : ℚ) ≤ 100 := by exact_mod_cast take.2
  unfold keptShare
  linarith

/-- Whole percents need no cut. -/
theorem Pool.kept_value {share kept : Decimal} (given : p.protocolTakeRate = .ok share)
    (left : (1 - share : Outcome Decimal) = .ok kept) : kept.toRat = p.keptShare := by
  have percent {n : ℤ} (few : |n| < 10 ^ 40) : Representable (n / 100) :=
    ⟨n, -2, few, by decide, by norm_num [div_eq_mul_inv]⟩
  have whole : 1 - (p.config.protocolTakeRatePct : ℚ) / 100 =
      ((100 - p.config.protocolTakeRatePct : ℤ) : ℚ) / 100 := by
    push_cast
    ring
  rw [sub_value left, Decimal.toRat_one, shareOfPercent_value given,
    (percent (abs_lt.mpr ⟨by omega, by omega⟩)).truncate_eq, whole,
    (percent (abs_lt.mpr ⟨by omega, by omega⟩)).truncate_eq, keptShare, whole]

end

/-! ## Before and after an action -/

theorem Pool.utilization_eq {p : Pool} (f : p.Figures) :
    p.utilization = DebtAndSupply.utilization ⟨f.debt, f.supply⟩ := by
  unfold utilization DebtAndSupply.utilization
  rw [f.totalSupply_eq, f.borrowed_eq]
  rfl

theorem Pool.Figures.exists_utilization {p : Pool} (f : p.Figures) :
    ∃ u, p.utilization = .ok u := by
  obtain ⟨curve, -, h⟩ := bind_eq_ok_iff.mp f.borrowApr_eq
  obtain ⟨u, used, -⟩ := bind_eq_ok_iff.mp h
  exact ⟨u, used⟩

theorem Pool.Figures.utilization_value {p : Pool} (f : p.Figures) {u : Decimal}
    (stocked : 0 < f.supply.toRat) (used : p.utilization = .ok u) :
    u.toRat = truncate (f.debt.toRat / f.supply.toRat) := by
  rw [Pool.utilization_eq f] at used
  exact DebtAndSupply.utilization_value (d := ⟨f.debt, f.supply⟩) stocked used

namespace Reserve

theorem borrowAprAfter_nonneg {r : Reserve} (opened : r.toPool.openReserve = .ok r)
    (unsigned : ∀ c ∈ r.config.borrowRateCurve, 0 ≤ c.borrowRateBps)
    (duration : 0 < r.slotDuration) {q : ReserveRequest} {x : Decimal}
    (h : r.borrowAprAfter q = .ok x) : 0 ≤ x.toRat := by
  unfold borrowAprAfter at h
  simp only [bind_eq_ok_iff] at h
  obtain ⟨u, -, rate, at_u, adjustment, adjusted, h⟩ := h
  have rate_nonneg :=
    RateCurve.rateAt_nonneg unsigned (Pool.borrowCurve_of_openReserve opened) at_u
  rw [mul_value h]
  exact truncate_nonneg (mul_nonneg rate_nonneg (slotAdjustment_nonneg duration adjusted))

/-- What a reserve pays its suppliers, as of its last refresh and after any action. -/
structure Pays (r : Reserve) : Prop where
  stored : ∃ debt supply borrowApr supplyApr, r.borrowed = .ok debt ∧ r.totalSupply = .ok supply ∧
    r.borrowApr = .ok borrowApr ∧ r.supplyApr = .ok supplyApr ∧
    (0 < supply.toRat → 0 ≤ borrowApr.toRat →
      PaysOut ⟨debt, supply⟩ borrowApr supplyApr r.keptShare)
  simulated : ∀ q supplyApr, r.supplyAprAfter q = .ok supplyApr → ∃ d borrowApr,
    r.debtAndSupplyAfter q = .ok d ∧ r.borrowAprAfter q = .ok borrowApr ∧
    (0 < d.supply.toRat → 0 ≤ d.debt.toRat → 0 ≤ borrowApr.toRat →
      PaysOut d borrowApr supplyApr r.keptShare)
  /-- Only on slots of no positive duration could the rate after an action be negative. -/
  nonneg : 0 < r.slotDuration → ∀ q borrowApr, r.borrowAprAfter q = .ok borrowApr →
    0 ≤ borrowApr.toRat

/-- Suppliers get what borrowers pay, less the take, before and after every action. -/
theorem reserve_pays {r : Reserve} (opened : r.toPool.openReserve = .ok r)
    (take : 0 ≤ r.config.protocolTakeRatePct ∧ r.config.protocolTakeRatePct ≤ 100)
    (unsigned : ∀ c ∈ r.config.borrowRateCurve, 0 ≤ c.borrowRateBps) : r.Pays := by
  obtain ⟨f⟩ := Pool.figures_of_openReserve opened
  have derives := Pool.derives_of_openReserve opened
  have kept_nonneg := Pool.keptShare_nonneg take
  refine ⟨?_, ?_, fun duration q x => borrowAprAfter_nonneg opened unsigned duration⟩
  · obtain ⟨supplyApr, supplied, -⟩ := derives.supplyApy
    refine ⟨f.debt, f.supply, f.borrowApr, supplyApr, f.borrowed_eq, f.totalSupply_eq,
      f.borrowApr_eq, supplied, fun stocked rate => ?_⟩
    unfold Pool.supplyApr at supplied
    simp only [bind_eq_ok_iff] at supplied
    obtain ⟨share, given, kept, left, u, used, apr, charged, paid, hpaid, shared⟩ := supplied
    cases f.borrowApr_eq.symm.trans charged
    rw [Pool.utilization_eq f] at used
    have value := Pool.kept_value take given left
    rw [← value] at kept_nonneg ⊢
    exact paysOut_of_steps stocked f.debt_nonneg rate kept_nonneg used hpaid shared
  · intro q supplyApr supplied
    unfold supplyAprAfter at supplied
    simp only [bind_eq_ok_iff] at supplied
    obtain ⟨u, used, borrowApr, charged, kept, left, paid, hpaid, shared⟩ := supplied
    obtain ⟨d, after, used⟩ := bind_eq_ok_iff.mp used
    refine ⟨d, borrowApr, after, charged, fun stocked owed rate => ?_⟩
    have value := Pool.kept_value take derives.protocolTakeRate left
    rw [← value] at kept_nonneg ⊢
    exact paysOut_of_steps stocked owed rate kept_nonneg used hpaid shared

open Sample in
/-- The sample keeps nine tenths of what its borrowers pay for its suppliers. -/
theorem reserve_pays_sample :
    reserve.supplyAprAfter (sized "borrow" 1000000 none) =
        .ok ⟨false, 5628756253754846565783127071485625703855, -41⟩ ∧
      PaysOut ⟨⟨false, 3001, 6⟩, ⟨false, 3999998, 3⟩⟩
        ⟨false, 8336115279168750695486458854340538281378, -41⟩
        ⟨false, 5628756253754846565783127071485625703855, -41⟩ (9 / 10) := by
  have paid : reserve.supplyAprAfter (sized "borrow" 1000000 none) =
      .ok ⟨false, 5628756253754846565783127071485625703855, -41⟩ := by decide +kernel
  have charged : reserve.borrowAprAfter (sized "borrow" 1000000 none) =
      .ok ⟨false, 8336115279168750695486458854340538281378, -41⟩ := by decide +kernel
  have pool_after : reserve.debtAndSupplyAfter (sized "borrow" 1000000 none) =
      .ok ⟨⟨false, 3001, 6⟩, ⟨false, 3999998, 3⟩⟩ := by decide +kernel
  have kept : reserve.keptShare = 9 / 10 := by
    show 1 - ((10 : ℤ) : ℚ) / 100 = 9 / 10
    norm_num
  have pays : reserve.Pays := reserve_pays Pool.opened_sample (by decide) (by decide)
  obtain ⟨d, borrowApr, after, borrowers, pays⟩ := pays.simulated _ _ paid
  cases pool_after.symm.trans after
  cases charged.symm.trans borrowers
  rw [kept] at pays
  exact ⟨paid, pays (by decide +kernel) (by decide +kernel) (by decide +kernel)⟩

end Reserve

end Lending
