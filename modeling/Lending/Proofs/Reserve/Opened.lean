/-
  Lending.Proofs.Reserve.Opened — what an opened reserve is known to give.

  `derives_of_openReserve` says once what opening a pool works out, and from what. Supply and
  rates are among it, so each stored fraction of an opened reserve can be read, and its borrow
  rate is there (`figures_of_openReserve`). The rest of this file says what the figures are
  worth.
-/
import Lending.Proofs.Outcome
import Lending.Proofs.ScaledFraction
import Lending.Reserve.Projection
import Lending.Reserve.Sample

namespace Lending

open Outcome Truncation

/-! ## Shares -/

theorem shareOfBps_value {n : ℤ} {x : Decimal} (h : shareOfBps n = .ok x) :
    x.toRat = truncate (n / 10000) := by
  rw [(div_value h).2, Decimal.toRat_ofInt, Decimal.toRat_ofInt]
  norm_num [fullShareBps]

theorem shareOfPercent_value {n : ℤ} {x : Decimal} (h : shareOfPercent n = .ok x) :
    x.toRat = truncate (n / 100) := by
  rw [(div_value h).2, Decimal.toRat_ofInt, Decimal.toRat_ofNat]

theorem shareOfBps_overflowOnly (n : ℤ) : (shareOfBps n).OverflowOnly :=
  shareOf_overflowOnly n (by decide)

theorem shareOfPercent_overflowOnly (n : ℤ) : (shareOfPercent n).OverflowOnly :=
  shareOf_overflowOnly n (by decide)

theorem Reserve.debtWeight_overflowOnly (r : Reserve) (group : ℤ) :
    (r.debtWeight group).OverflowOnly := by
  unfold debtWeight
  split
  · exact .pure _
  · exact shareOfPercent_overflowOnly _

theorem truncate_share_mem {n whole : ℚ} (nonneg : 0 ≤ n) (le : n ≤ whole) (positive : 0 < whole) :
    0 ≤ truncate (n / whole) ∧ truncate (n / whole) ≤ 1 :=
  ⟨truncate_nonneg (div_nonneg nonneg positive.le),
    (truncate_le (div_nonneg nonneg positive.le)).trans ((div_le_one positive).mpr le)⟩

namespace Pool

theorem toPool_of_openReserve {p : Pool} {r : Reserve} (h : p.openReserve = .ok r) :
    r.toPool = p := by
  obtain ⟨stats, -, h⟩ := bind_eq_ok_iff.mp h
  cases h
  rfl

structure Keeps (p : Pool) (s : ReserveStats) : Prop where
  borrowFactorPct : s.borrowFactorPct = p.config.borrowFactorPct
  borrowLimit : s.borrowLimit = Decimal.ofInt p.config.borrowLimit
  loanToValue : shareOfPercent p.config.loanToValuePct = .ok s.loanToValue
  liquidationThreshold : shareOfPercent p.config.liquidationThresholdPct =
    .ok s.liquidationThreshold

/-- What each figure of an opened reserve is worked out from. -/
structure Derives (p : Pool) (s : ReserveStats) : Prop extends p.Keeps s where
  status : ReserveStatus.ofCode p.config.status = .ok s.status
  borrowCurve : RateCurve.ofControlPoints p.config.borrowRateCurve = .ok s.borrowCurve
  maxLiquidationBonus : shareOfBps p.config.maxLiquidationBonusBps = .ok s.maxLiquidationBonus
  minLiquidationBonus : shareOfBps p.config.minLiquidationBonusBps = .ok s.minLiquidationBonus
  protocolTakeRate : p.protocolTakeRate = .ok s.protocolTakeRate
  supplyApy : ∃ rate, p.supplyApr = .ok rate ∧ Interest.yearlyYield rate = .ok s.supplyApy
  borrowApy : ∃ rate, p.borrowApr = .ok rate ∧ Interest.yearlyYield rate = .ok s.borrowApy
  protocolFees : ∃ fees factor, p.protocolFees = .ok fees ∧ p.mintFactor = .ok factor ∧
    (fees / factor : Outcome Decimal) = .ok s.protocolFees

theorem derives_of_openReserve {p : Pool} {r : Reserve} (h : p.openReserve = .ok r) :
    p.Derives r.stats := by
  obtain ⟨stats, derived, opened⟩ := bind_eq_ok_iff.mp h
  cases opened
  unfold deriveStats at derived
  simp only [bind_eq_ok_iff] at derived
  obtain ⟨factor, hfactor, status, hstatus, curve, hcurve, ltv, hltv, maxBonus, hmaxBonus,
    minBonus, hminBonus, threshold, hthreshold, takeRate, htakeRate, supplyRate, hsupplyRate,
    supplyApy, hsupplyApy, borrowRate, hborrowRate, borrowApy, hborrowApy, fees, hfees, whole,
    hwhole, issued, -, derived⟩ := derived
  cases derived
  exact ⟨⟨rfl, rfl, hltv, hthreshold⟩, hstatus, hcurve, hmaxBonus, hminBonus, htakeRate,
    ⟨supplyRate, hsupplyRate, hsupplyApy⟩, ⟨borrowRate, hborrowRate, hborrowApy⟩,
    fees, factor, hfees, hfactor, hwhole⟩

theorem settings_of_openReserve {p : Pool} {r : Reserve} (h : p.openReserve = .ok r) :
    p.Keeps r.stats := (derives_of_openReserve h).toKeeps

theorem borrowCurve_of_openReserve {p : Pool} {r : Reserve} (h : p.openReserve = .ok r) :
    RateCurve.ofControlPoints p.config.borrowRateCurve = .ok r.stats.borrowCurve :=
  (derives_of_openReserve h).borrowCurve

/-- Opening a pool divides by the base units of a whole token. -/
theorem exists_mintFactor_of_openReserve {p : Pool} {r : Reserve} (h : p.openReserve = .ok r) :
    ∃ factor, p.mintFactor = .ok factor ∧ factor.toRat ≠ 0 := by
  obtain ⟨fees, factor, -, given, divided⟩ := (derives_of_openReserve h).protocolFees
  exact ⟨factor, given, (div_value divided).1⟩

structure Figures (p : Pool) where
  debt : Decimal
  protocolFees : Decimal
  referrerFees : Decimal
  pendingReferrerFees : Decimal
  supply : Decimal
  takeRate : Decimal
  borrowApr : Decimal
  borrowed_eq : p.borrowed = .ok debt
  protocolFees_eq : p.protocolFees = .ok protocolFees
  referrerFees_eq : p.referrerFees = .ok referrerFees
  pendingReferrerFees_eq : p.pendingReferrerFees = .ok pendingReferrerFees
  totalSupply_eq : p.totalSupply = .ok supply
  protocolTakeRate_eq : p.protocolTakeRate = .ok takeRate
  borrowApr_eq : p.borrowApr = .ok borrowApr

theorem figures_of_openReserve {p : Pool} {r : Reserve} (h : p.openReserve = .ok r) :
    Nonempty p.Figures := by
  have derives := derives_of_openReserve h
  obtain ⟨borrowRate, apr, -⟩ := derives.borrowApy
  obtain ⟨supplyRate, supplied, -⟩ := derives.supplyApy
  unfold supplyApr at supplied
  simp only [bind_eq_ok_iff] at supplied
  obtain ⟨-, -, -, -, utilization, used, -⟩ := supplied
  obtain ⟨supply, total, -⟩ := bind_eq_ok_iff.mp used
  have parts := total
  unfold totalSupply at parts
  simp only [bind_eq_ok_iff] at parts
  obtain ⟨debt, borrowed, gross, -, fees, protocol, afterProtocol, -, referrerFees, referrers,
    afterReferrers, -, pendingFees, pending, -⟩ := parts
  exact ⟨debt, fees, referrerFees, pendingFees, supply, _, borrowRate, borrowed, protocol,
    referrers, pending, total, derives.protocolTakeRate, apr⟩

theorem opened_sample : Sample.pool.openReserve = .ok Sample.reserve := by
  decide +kernel

/-! ## Values -/

def supplyOf (available debt protocol referrers pending : ℚ) : ℚ :=
  truncate (truncate (truncate (truncate (available + debt) - protocol) - referrers) - pending)

namespace Figures

variable {p : Pool} (f : p.Figures)

theorem supply_value : f.supply.toRat = supplyOf p.account.liquidity.availableAmount
    f.debt.toRat f.protocolFees.toRat f.referrerFees.toRat f.pendingReferrerFees.toRat := by
  have total := f.totalSupply_eq
  unfold totalSupply at total
  rw [f.borrowed_eq, f.protocolFees_eq, f.referrerFees_eq, f.pendingReferrerFees_eq] at total
  obtain ⟨debt, hdebt, gross, hgross, fees, hfees, rest, hrest, referrers, hreferrers, left, hleft,
    pending, hpending, total⟩ := by simpa only [bind_eq_ok_iff] using total
  cases hdebt
  cases hfees
  cases hreferrers
  cases hpending
  rw [sub_value total, sub_value hleft, sub_value hrest, add_value hgross, available,
    Decimal.toRat_ofInt]
  rfl

theorem debt_nonneg : 0 ≤ f.debt.toRat := ScaledFraction.decode_nonneg f.borrowed_eq

theorem protocolFees_nonneg : 0 ≤ f.protocolFees.toRat :=
  ScaledFraction.decode_nonneg f.protocolFees_eq

theorem referrerFees_nonneg : 0 ≤ f.referrerFees.toRat :=
  ScaledFraction.decode_nonneg f.referrerFees_eq

theorem pendingReferrerFees_nonneg : 0 ≤ f.pendingReferrerFees.toRat :=
  ScaledFraction.decode_nonneg f.pendingReferrerFees_eq

theorem representable_debt : Representable f.debt.toRat :=
  ScaledFraction.representable_decode f.borrowed_eq

theorem representable_protocolFees : Representable f.protocolFees.toRat :=
  ScaledFraction.representable_decode f.protocolFees_eq

theorem representable_referrerFees : Representable f.referrerFees.toRat :=
  ScaledFraction.representable_decode f.referrerFees_eq

theorem representable_pendingReferrerFees : Representable f.pendingReferrerFees.toRat :=
  ScaledFraction.representable_decode f.pendingReferrerFees_eq

end Figures

end Pool

end Lending
