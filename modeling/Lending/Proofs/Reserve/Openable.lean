/-
  Lending.Proofs.Reserve.Openable — when a pool can be opened, and how opening it fails.

  Three things keep a pool from being opened: an unknown status, a curve without points, and
  slots of no duration. They are met in this order (`openReserve_ends`). Nothing else does, as
  long as what is stored is in range: sums and shares of stored words are far below the limit
  of an amount, a curve gives no rate above its points, slots of a tenth of a second rescale
  it by 5 at most, and the yield of such a rate over a year can still be written.
-/
import Lending.Proofs.Interest.Yield
import Lending.Proofs.RateCurve

namespace Lending

open Outcome Truncation

/-! ## Stored numbers -/

/-- Ten of these are too large to be an amount. -/
def wordLimit : ℚ := 10 ^ (money.maxExponent : ℤ)

theorem wordLimit_pos : 0 < wordLimit := by
  unfold wordLimit
  positivity

theorem ten_mul_wordLimit : 10 * wordLimit = Decimal.limit := by
  rw [mul_comm]
  exact (zpow_add_one₀ (by norm_num) _).symm

theorem one_le_wordLimit : 1 ≤ wordLimit := one_le_zpow₀ (by norm_num) (by decide)

structure IsWord (n : ℤ) : Prop where
  nonneg : 0 ≤ n
  lt : (n : ℚ) < wordLimit

theorem two_pow_le_wordLimit : (2 : ℚ) ^ 128 ≤ wordLimit := by
  calc (2 : ℚ) ^ 128 ≤ 10 ^ (39 : ℤ) := by norm_num
    _ ≤ wordLimit := zpow_le_zpow_right₀ (by norm_num) (by decide)

/-- The words of accounts have 128 bits at most. -/
theorem isWord_of_lt {n : ℤ} (nonneg : 0 ≤ n) (lt : n < 2 ^ 128) : IsWord n := by
  have small : (n : ℚ) < 2 ^ 128 := by exact_mod_cast lt
  exact ⟨nonneg, small.trans_le two_pow_le_wordLimit⟩

theorem IsWord.size {n : ℤ} (word : IsWord n) : |(Decimal.ofInt n).toRat| ≤ wordLimit := by
  rw [Decimal.toRat_ofInt, abs_of_nonneg (by exact_mod_cast word.nonneg)]
  exact word.lt.le

theorem lt_limit_of_le_wordLimit {x : ℚ} (le : x ≤ wordLimit) : x < Decimal.limit := by
  linarith [ten_mul_wordLimit, wordLimit_pos]

theorem IsWord.exists_shareOf {n whole : ℤ} (word : IsWord n) (one_le : 1 ≤ whole) :
    ∃ x, (Decimal.ofInt n / Decimal.ofInt whole : Outcome Decimal) = .ok x := by
  refine exists_div_of_one_le (lt_limit_of_le_wordLimit word.size) ?_
  rw [Decimal.toRat_ofInt]
  exact_mod_cast one_le

/-- Shares of numbers of 128 bits, of either sign. -/
theorem exists_shareOf_le {n whole : ℤ} (narrow : |n| ≤ 2 ^ 128) (one_le : 1 ≤ whole) :
    ∃ x, (Decimal.ofInt n / Decimal.ofInt whole : Outcome Decimal) = .ok x ∧
      |x.toRat| ≤ 2 ^ 128 := by
  have size : |(n : ℚ)| ≤ 2 ^ 128 := by exact_mod_cast narrow
  have one_le' : (1 : ℚ) ≤ whole := by exact_mod_cast one_le
  obtain ⟨x, hx⟩ := exists_div_of_one_le (x := Decimal.ofInt n) (y := Decimal.ofInt whole)
    (lt_limit_of_le_wordLimit (by
      rw [Decimal.toRat_ofInt]
      exact size.trans two_pow_le_wordLimit))
    (by rwa [Decimal.toRat_ofInt])
  refine ⟨x, hx, ?_⟩
  rw [(div_value hx).2, Decimal.toRat_ofInt, Decimal.toRat_ofInt]
  calc |truncate (n / whole)| ≤ |(n : ℚ) / whole| := abs_truncate_le _
    _ = |(n : ℚ)| / whole := by rw [abs_div, abs_of_pos (zero_lt_one.trans_le one_le')]
    _ ≤ |(n : ℚ)| := div_le_self (abs_nonneg _) one_le'
    _ ≤ 2 ^ 128 := size

theorem IsWord.exists_shareOfBps {n : ℤ} (word : IsWord n) : ∃ x, shareOfBps n = .ok x :=
  word.exists_shareOf (by decide)

theorem IsWord.exists_shareOfPercent {n : ℤ} (word : IsWord n) :
    ∃ x, shareOfPercent n = .ok x :=
  word.exists_shareOf (by decide : (1 : ℤ) ≤ 100)

theorem ScaledFraction.exists_decode {raw : ℤ} (word : IsWord raw) :
    ∃ x, decode raw = .ok x ∧ |x.toRat| ≤ wordLimit := by
  have nonneg : (0 : ℚ) ≤ raw := by exact_mod_cast word.nonneg
  have small : (raw : ℚ) / scale ≤ wordLimit :=
    (div_le_self nonneg one_le_scale).trans word.lt.le
  have room : |(raw : ℚ)| < Decimal.limit := by
    have size := lt_limit_of_le_wordLimit word.size
    rwa [Decimal.toRat_ofInt] at size
  obtain ⟨x, read, value⟩ := exists_decoded word.nonneg
    ((div_le_self nonneg one_le_scale).trans_lt ((le_abs_self _).trans_lt room))
  refine ⟨x, read, ?_⟩
  rw [abs_of_nonneg (decode_nonneg read), value]
  exact (truncate_le (count_div_nonneg word.nonneg)).trans small

/-- Adding up a few words. -/
theorem exists_add_word {x y : Decimal} {k : ℕ} (few : k ≤ 4) (hx : |x.toRat| ≤ k * wordLimit)
    (hy : |y.toRat| ≤ wordLimit) :
    ∃ z, (x + y : Outcome Decimal) = .ok z ∧ |z.toRat| ≤ (k + 1 : ℕ) * wordLimit := by
  have few' : (k : ℚ) ≤ 4 := by exact_mod_cast few
  have half := ten_mul_wordLimit
  have positive := wordLimit_pos
  obtain ⟨z, hz⟩ := exists_add (x := x) (y := y)
    (by nlinarith) (by linarith)
  refine ⟨z, hz, ?_⟩
  rw [add_value hz]
  push_cast
  linarith [abs_truncate_le (x.toRat + y.toRat), abs_add_le x.toRat y.toRat]

theorem exists_sub_word {x y : Decimal} {k : ℕ} (few : k ≤ 4) (hx : |x.toRat| ≤ k * wordLimit)
    (hy : |y.toRat| ≤ wordLimit) :
    ∃ z, (x - y : Outcome Decimal) = .ok z ∧ |z.toRat| ≤ (k + 1 : ℕ) * wordLimit :=
  exists_add_word (y := y.flip) few hx (by rwa [Decimal.toRat_flip, abs_neg])

/-! ## Curves -/

def highestRate : ℚ := 2 ^ 32 / 10000

structure ControlPoint.Stored (c : ControlPoint) : Prop where
  utilization : IsWord c.utilizationBps
  rate : 0 ≤ c.borrowRateBps ∧ c.borrowRateBps < 2 ^ 32

theorem ControlPoint.Stored.exists_toRatePoint {c : ControlPoint} (stored : c.Stored) :
    ∃ p, c.toRatePoint = .ok p ∧ p.Moderate highestRate := by
  obtain ⟨utilization, hutilization⟩ := stored.utilization.exists_shareOfBps
  obtain ⟨rate, hrate⟩ :=
    (isWord_of_lt stored.rate.1 (stored.rate.2.trans (by decide))).exists_shareOfBps
  have point : c.toRatePoint = .ok ⟨utilization, rate⟩ := by
    unfold toRatePoint
    simp only [bind_eq_ok_iff]
    exact ⟨utilization, hutilization, rate, hrate, rfl⟩
  have used_nonneg : (0 : ℚ) ≤ c.utilizationBps := by exact_mod_cast stored.utilization.nonneg
  have rate_nonneg : (0 : ℚ) ≤ c.borrowRateBps := by exact_mod_cast stored.rate.1
  have rate_lt : (c.borrowRateBps : ℚ) < 2 ^ 32 := by exact_mod_cast stored.rate.2
  have used_share : (0 : ℚ) ≤ c.utilizationBps / 10000 := by positivity
  have rate_share : (0 : ℚ) ≤ c.borrowRateBps / 10000 := by positivity
  refine ⟨_, point, exact_toRatePoint point, ?_, ?_, ?_, ?_⟩
  · rw [shareOfBps_value hutilization]
    exact truncate_nonneg used_share
  · rw [shareOfBps_value hutilization]
    refine (truncate_le used_share).trans_lt ?_
    linarith [stored.utilization.lt, ten_mul_wordLimit, wordLimit_pos]
  · rw [shareOfBps_value hrate]
    exact truncate_nonneg rate_share
  · rw [shareOfBps_value hrate]
    refine (truncate_le rate_share).trans ?_
    unfold highestRate
    linarith

theorem RateCurve.exists_ofControlPoints {points : List ControlPoint}
    (stored : ∀ c ∈ points, c.Stored) :
    ∃ curve, ofControlPoints points = .ok curve ∧ (∀ p ∈ curve, p.Moderate highestRate) ∧
      (points ≠ [] → curve ≠ []) := by
  have each c (listed : c ∈ points) := (stored c listed).exists_toRatePoint
  obtain ⟨curve, h⟩ : ∃ curve, ofControlPoints points = .ok curve := by
    refine exists_curve fun c kept => ?_
    obtain ⟨p, hp, -⟩ := each c (ControlPoint.mem_of_mem_withoutPadding kept)
    exact ⟨p, hp⟩
  refine ⟨curve, h, forall_ofControlPoints (fun c listed p hp => ?_) h, fun some => ?_⟩
  · obtain ⟨q, hq, moderate⟩ := each c listed
    cases hp.symm.trans hq
    exact moderate
  · exact ne_nil_ofControlPoints h (ControlPoint.withoutPadding_ne_nil some)

namespace ReserveStatus

theorem ofCode_of_unknown {code : ℤ} (unknown : code ∉ ([0, 1, 2] : List ℤ)) :
    ofCode code = .error (.unknownReserveStatus code) := by
  simp only [List.mem_cons, List.not_mem_nil, or_false, not_or] at unknown
  unfold ofCode
  rw [if_neg unknown.1, if_neg unknown.2.1, if_neg unknown.2.2]

theorem exists_ofCode {code : ℤ} (known : code ∈ ([0, 1, 2] : List ℤ)) :
    ∃ status, ofCode code = .ok status := by
  simp only [List.mem_cons, List.not_mem_nil, or_false] at known
  rcases known with rfl | rfl | rfl <;> exact ⟨_, rfl⟩

end ReserveStatus

theorem RateCurve.rateAt_le {curve : RateCurve} (moderate : ∀ p ∈ curve, p.Moderate highestRate)
    {u rate : Decimal} (h : curve.rateAt u = .ok rate) :
    0 ≤ rate.toRat ∧ rate.toRat ≤ highestRate :=
  rateAt_mem Set.ordConnected_Icc (fun p listed => (moderate p listed).toExact)
    (fun p listed => ⟨(moderate p listed).rate_nonneg, (moderate p listed).rate_le⟩) h

namespace Pool

/-! ## Rates of a pool -/

structure Stored (p : Pool) : Prop where
  available : IsWord p.account.liquidity.availableAmount
  borrowed : IsWord p.account.liquidity.rawBorrowed
  protocolFees : IsWord p.account.liquidity.rawProtocolFees
  referrerFees : IsWord p.account.liquidity.rawReferrerFees
  pendingReferrerFees : IsWord p.account.liquidity.rawPendingReferrerFees
  collateral : IsWord p.account.collateral.totalSupply
  loanToValue : IsWord p.config.loanToValuePct
  liquidationThreshold : IsWord p.config.liquidationThresholdPct
  maxLiquidationBonus : IsWord p.config.maxLiquidationBonusBps
  minLiquidationBonus : IsWord p.config.minLiquidationBonusBps
  mintDecimals : 0 ≤ p.account.liquidity.mintDecimals ∧ p.account.liquidity.mintDecimals < 256
  curve : ∀ c ∈ p.config.borrowRateCurve, c.Stored

def UsedWithin (p : Pool) : Prop :=
  ∀ debt supply, p.borrowed = .ok debt → p.totalSupply = .ok supply →
    0 ≤ truncate (debt.toRat / supply.toRat) ∧ truncate (debt.toRat / supply.toRat) ≤ 1

section
variable {p : Pool} (stored : p.Stored)
include stored

theorem Stored.exists_totalSupply : ∃ supply, p.totalSupply = .ok supply := by
  obtain ⟨debt, hdebt, debt_le⟩ := ScaledFraction.exists_decode stored.borrowed
  obtain ⟨fees, hfees, fees_le⟩ := ScaledFraction.exists_decode stored.protocolFees
  obtain ⟨referrers, hreferrers, referrers_le⟩ := ScaledFraction.exists_decode stored.referrerFees
  obtain ⟨pending, hpending, pending_le⟩ := ScaledFraction.exists_decode stored.pendingReferrerFees
  obtain ⟨gross, hgross, gross_le⟩ := exists_add_word (x := p.available) (k := 1) (by norm_num)
    (by rw [Nat.cast_one, one_mul]; exact stored.available.size) debt_le
  obtain ⟨rest, hrest, rest_le⟩ := exists_sub_word (by norm_num) gross_le fees_le
  obtain ⟨left, hleft, left_le⟩ := exists_sub_word (by norm_num) rest_le referrers_le
  obtain ⟨supply, hsupply, -⟩ := exists_sub_word (by norm_num) left_le pending_le
  refine ⟨supply, ?_⟩
  unfold totalSupply
  simp only [bind_eq_ok_iff]
  exact ⟨debt, hdebt, gross, hgross, fees, hfees, rest, hrest, referrers, hreferrers, left, hleft,
    pending, hpending, hsupply⟩

theorem Stored.exists_utilization (used : p.UsedWithin) :
    ∃ u, p.utilization = .ok u ∧ u.toRat ≤ 1 ∧ 0 ≤ u.toRat := by
  obtain ⟨debt, hdebt, -⟩ := ScaledFraction.exists_decode stored.borrowed
  obtain ⟨supply, hsupply⟩ := stored.exists_totalSupply
  obtain ⟨nonneg, le_one⟩ := used debt supply hdebt hsupply
  unfold utilization
  rw [hsupply]
  show ∃ u, (if supply.isZero then _ else _) = _ ∧ _
  split
  · exact ⟨0, rfl, by rw [Decimal.toRat_zero]; norm_num, by rw [Decimal.toRat_zero]⟩
  · rename_i some
    rw [Decimal.isZero_iff] at some
    have small := lt_limit_of_le_wordLimit (le_one.trans one_le_wordLimit)
    have size : |debt.toRat / supply.toRat| < Decimal.limit := by
      refine abs_lt.mpr ⟨neg_lt.mp (Decimal.lt_limit_of_truncate_lt ?_),
        Decimal.lt_limit_of_truncate_lt small⟩
      rw [truncate_neg]
      linarith [Decimal.limit_pos]
    obtain ⟨u, hu⟩ := exists_div some size
    refine ⟨u, bind_eq_ok_iff.mpr ⟨debt, hdebt, hu⟩, ?_⟩
    rw [(div_value hu).2]
    exact ⟨le_one, nonneg⟩

end

/-- Above the rate of any curve in slots of a tenth of a second. -/
def highestApr : ℚ := 2147484

theorem highestApr_lt : highestApr < Decimal.limit := by
  have large := Decimal.zpow_le_half_limit (e := 7) (by decide)
  unfold highestApr
  norm_num at large
  linarith [Decimal.limit_pos]

section
variable {p : Pool}

theorem slotAdjustment_of_zero (stopped : p.slotDuration = 0) :
    p.slotAdjustment = .error .divisionByZero := by
  unfold slotAdjustment
  rw [stopped]
  decide

/-- The slots that rates are given for last 500 milliseconds. -/
theorem slotAdjustment_eq (p : Pool) :
    p.slotAdjustment = (⟨false, 5, 2⟩ / Decimal.ofInt p.slotDuration : Outcome Decimal) := by
  have nominal : (1000 / Decimal.ofInt slotsPerSecond : Outcome Decimal) = .ok ⟨false, 5, 2⟩ := by
    decide
  unfold slotAdjustment
  rw [nominal]
  rfl

theorem toRat_nominalSlot : Decimal.toRat ⟨false, 5, 2⟩ = 500 := by
  rw [Decimal.toRat_eq, Decimal.unit_false]
  norm_num

/-- Durations are whole milliseconds, so no rate is rescaled by more than 500. -/
theorem slotAdjustment_le {x : Decimal} (h : p.slotAdjustment = .ok x) : |x.toRat| ≤ 500 := by
  rw [slotAdjustment_eq] at h
  obtain ⟨some, value⟩ := div_value h
  rw [Decimal.toRat_ofInt] at some
  have one_le : (1 : ℚ) ≤ |(p.slotDuration : ℚ)| := by
    exact_mod_cast Int.one_le_abs (Int.cast_ne_zero.mp some)
  rw [value, toRat_nominalSlot, Decimal.toRat_ofInt]
  calc |truncate (500 / p.slotDuration)| ≤ |500 / (p.slotDuration : ℚ)| := abs_truncate_le _
    _ = 500 / |(p.slotDuration : ℚ)| := by rw [abs_div, abs_of_pos (by norm_num : (0 : ℚ) < 500)]
    _ ≤ 500 := div_le_self (by norm_num) one_le

theorem exists_slotAdjustment (duration : 100 ≤ p.slotDuration) :
    ∃ x, p.slotAdjustment = .ok x ∧ 0 ≤ x.toRat ∧ x.toRat ≤ 5 := by
  have whole : (100 : ℚ) ≤ p.slotDuration := by exact_mod_cast duration
  have quotient : 0 ≤ 500 / (p.slotDuration : ℚ) := by positivity
  have quotient_le : 500 / (p.slotDuration : ℚ) ≤ 5 := by
    rw [div_le_iff₀ (by linarith)]
    linarith
  obtain ⟨x, hx⟩ : ∃ x, (⟨false, 5, 2⟩ / Decimal.ofInt p.slotDuration : Outcome Decimal) =
      .ok x := by
    refine exists_div ?_ ?_
    · rw [Decimal.toRat_ofInt]
      linarith
    · rw [toRat_nominalSlot, Decimal.toRat_ofInt, abs_of_nonneg quotient]
      linarith [ten_mul_wordLimit, one_le_wordLimit]
  refine ⟨x, (slotAdjustment_eq p).trans hx, ?_⟩
  rw [(div_value hx).2, toRat_nominalSlot, Decimal.toRat_ofInt]
  exact ⟨truncate_nonneg quotient, (truncate_le quotient).trans quotient_le⟩

/-- With points as they are stored, whatever the utilization and the length of slots. -/
theorem borrowApr_le (points : ∀ c ∈ p.config.borrowRateCurve, c.Stored) {apr : Decimal}
    (h : p.borrowApr = .ok apr) : |apr.toRat| ≤ highestRate * 500 := by
  unfold borrowApr at h
  simp only [bind_eq_ok_iff] at h
  obtain ⟨curve, hcurve, u, -, rate, hrate, adjustment, hadjustment, h⟩ := h
  obtain ⟨curve', given, moderate, -⟩ := RateCurve.exists_ofControlPoints points
  cases hcurve.symm.trans given
  obtain ⟨rate_nonneg, rate_le⟩ := RateCurve.rateAt_le moderate hrate
  rw [mul_value h]
  calc |truncate (rate.toRat * adjustment.toRat)| ≤ |rate.toRat * adjustment.toRat| :=
        abs_truncate_le _
    _ = rate.toRat * |adjustment.toRat| := by rw [abs_mul, abs_of_nonneg rate_nonneg]
    _ ≤ highestRate * 500 :=
        mul_le_mul rate_le (slotAdjustment_le hadjustment) (abs_nonneg _)
          (rate_nonneg.trans rate_le)

/-- A product of two figures that are not negative and not too large. -/
theorem exists_mul_le {x y : Decimal} {a b : ℚ} (hx : 0 ≤ x.toRat ∧ x.toRat ≤ a)
    (hy : 0 ≤ y.toRat ∧ y.toRat ≤ b) (small : a * b < Decimal.limit) :
    ∃ z, (x * y : Outcome Decimal) = .ok z ∧ 0 ≤ z.toRat ∧ z.toRat ≤ a * b := by
  have nonneg : 0 ≤ x.toRat * y.toRat := mul_nonneg hx.1 hy.1
  have le : x.toRat * y.toRat ≤ a * b := mul_le_mul hx.2 hy.2 hy.1 (hx.1.trans hx.2)
  obtain ⟨z, hz⟩ := exists_mul (x := x) (y := y) (by
    rw [abs_of_nonneg nonneg]
    exact le.trans_lt small)
  refine ⟨z, hz, ?_⟩
  rw [mul_value hz]
  exact ⟨truncate_nonneg nonneg, (truncate_le nonneg).trans le⟩

variable (stored : p.Stored) (used : p.UsedWithin)
include stored used

theorem Stored.borrowApr_of_no_curve (none : p.config.borrowRateCurve = []) :
    p.borrowApr = .error .emptyCurve := by
  obtain ⟨u, hu, -⟩ := stored.exists_utilization used
  unfold borrowApr
  rw [none, hu]
  rfl

theorem Stored.exists_curveRate (some : p.config.borrowRateCurve ≠ []) :
    ∃ curve u rate, RateCurve.ofControlPoints p.config.borrowRateCurve = .ok curve ∧
      p.utilization = .ok u ∧ curve.rateAt u = .ok rate ∧
      0 ≤ rate.toRat ∧ rate.toRat ≤ highestRate := by
  obtain ⟨curve, hcurve, moderate, points⟩ := RateCurve.exists_ofControlPoints stored.curve
  obtain ⟨u, hu, u_le, -⟩ := stored.exists_utilization used
  have small : highestRate < Decimal.limit / 2 := by
    have large := Decimal.zpow_le_half_limit (e := 6) (by decide)
    unfold highestRate
    norm_num at large ⊢
    linarith
  obtain ⟨rate, hrate⟩ := RateCurve.exists_rateAt small u_le (points some) moderate
  exact ⟨curve, u, rate, hcurve, hu, hrate, RateCurve.rateAt_le moderate hrate⟩

theorem Stored.borrowApr_of_stopped (some : p.config.borrowRateCurve ≠ [])
    (stopped : p.slotDuration = 0) : p.borrowApr = .error .divisionByZero := by
  obtain ⟨curve, u, rate, hcurve, hu, hrate, -⟩ := stored.exists_curveRate used some
  unfold borrowApr
  rw [hcurve, hu, slotAdjustment_of_zero stopped]
  show curve.rateAt u >>= _ = _
  rw [hrate]
  rfl

theorem Stored.exists_borrowApr (some : p.config.borrowRateCurve ≠ [])
    (duration : 100 ≤ p.slotDuration) :
    ∃ apr, p.borrowApr = .ok apr ∧ 0 ≤ apr.toRat ∧ apr.toRat ≤ highestApr := by
  obtain ⟨curve, u, rate, hcurve, hu, hrate, rate_in⟩ := stored.exists_curveRate used some
  obtain ⟨adjustment, hadjustment, adjustment_in⟩ := exists_slotAdjustment duration
  have le : highestRate * 5 ≤ highestApr := by norm_num [highestRate, highestApr]
  obtain ⟨apr, hapr, nonneg, apr_le⟩ := exists_mul_le rate_in adjustment_in
    (le.trans_lt highestApr_lt)
  refine ⟨apr, ?_, nonneg, apr_le.trans le⟩
  unfold borrowApr
  simp only [bind_eq_ok_iff]
  exact ⟨curve, hcurve, u, hu, rate, hrate, adjustment, hadjustment, hapr⟩

variable (take : 0 ≤ p.config.protocolTakeRatePct ∧ p.config.protocolTakeRatePct ≤ 100)
include take

omit stored used in
theorem exists_kept : ∃ share kept, p.protocolTakeRate = .ok share ∧
    (1 - share : Outcome Decimal) = .ok kept ∧ 0 ≤ kept.toRat ∧ kept.toRat ≤ 1 := by
  obtain ⟨share, hshare⟩ :=
    (isWord_of_lt take.1 (take.2.trans_lt (by decide))).exists_shareOfPercent
  have share_in : 0 ≤ share.toRat ∧ share.toRat ≤ 1 := by
    rw [shareOfPercent_value hshare]
    exact truncate_share_mem (by exact_mod_cast take.1) (by exact_mod_cast take.2) (by norm_num)
  have size {x : ℚ} (le : |x| ≤ 1) : |x| < Decimal.limit / 2 := by
    linarith [ten_mul_wordLimit, one_le_wordLimit]
  obtain ⟨kept, hkept⟩ := exists_sub (x := 1) (y := share)
    (size (by rw [Decimal.toRat_one, abs_one]))
    (size (abs_le.mpr ⟨by linarith, share_in.2⟩))
  refine ⟨share, kept, hshare, hkept, ?_⟩
  rw [sub_value hkept, Decimal.toRat_one]
  have left := sub_nonneg.mpr share_in.2
  exact ⟨truncate_nonneg left, (truncate_le left).trans (by linarith)⟩

theorem Stored.supplyApr_of_error {fault : Fault} (failed : p.borrowApr = .error fault) :
    p.supplyApr = .error fault := by
  obtain ⟨share, kept, hshare, hkept, -⟩ := exists_kept take
  obtain ⟨u, hu, -⟩ := stored.exists_utilization used
  unfold supplyApr
  rw [hshare, failed, hu]
  show (1 - share : Outcome Decimal) >>= _ = _
  rw [hkept]
  rfl

theorem Stored.exists_supplyApr (some : p.config.borrowRateCurve ≠ [])
    (duration : 100 ≤ p.slotDuration) :
    ∃ apr, p.supplyApr = .ok apr ∧ 0 ≤ apr.toRat ∧ apr.toRat ≤ highestApr := by
  obtain ⟨share, kept, hshare, hkept, kept_in⟩ := exists_kept take
  obtain ⟨u, hu, u_le, u_nonneg⟩ := stored.exists_utilization used
  obtain ⟨borrow, hborrow, borrow_in⟩ := stored.exists_borrowApr used some duration
  obtain ⟨paid, hpaid, paid_in⟩ := exists_mul_le ⟨u_nonneg, u_le⟩ borrow_in
    ((one_mul highestApr).trans_lt highestApr_lt)
  rw [one_mul] at paid_in
  obtain ⟨apr, hapr, apr_in⟩ := exists_mul_le paid_in kept_in
    ((mul_one highestApr).trans_lt highestApr_lt)
  rw [mul_one] at apr_in
  refine ⟨apr, ?_, apr_in⟩
  unfold supplyApr
  simp only [bind_eq_ok_iff]
  exact ⟨share, hshare, kept, hkept, u, hu, borrow, hborrow, paid, hpaid, hapr⟩

end

/-! ## Opening -/

def refusal? (p : Pool) : Option Fault :=
  if p.config.status ∉ ([0, 1, 2] : List ℤ) then some (.unknownReserveStatus p.config.status)
  else if p.config.borrowRateCurve = [] then some .emptyCurve
  else if p.slotDuration = 0 then some .divisionByZero
  else none

section
variable {p : Pool} (stored : p.Stored)
include stored

theorem Stored.exists_mintFactor : ∃ factor, p.mintFactor = .ok factor ∧ 1 ≤ factor.toRat := by
  have least : money.leastExponent ≤ 0 := by decide
  have most : (256 : ℤ) ≤ money.maxExponent := by decide
  obtain ⟨factor, hfactor, value⟩ := Decimal.exists_powerOfTen (least.trans stored.mintDecimals.1)
    (stored.mintDecimals.2.le.trans most)
  refine ⟨factor, hfactor, ?_⟩
  rw [value]
  exact one_le_zpow₀ (by norm_num) stored.mintDecimals.1

theorem Stored.openReserve_of_unknown (unknown : p.config.status ∉ ([0, 1, 2] : List ℤ)) :
    p.openReserve = .error (.unknownReserveStatus p.config.status) := by
  obtain ⟨factor, hfactor, -⟩ := stored.exists_mintFactor
  unfold openReserve deriveStats
  rw [hfactor, ReserveStatus.ofCode_of_unknown unknown]
  rfl

variable (take : 0 ≤ p.config.protocolTakeRatePct ∧ p.config.protocolTakeRatePct ≤ 100)
  (known : p.config.status ∈ ([0, 1, 2] : List ℤ))
include take known

/-- Before the rates nothing fails: the figures come down to the rates and to what is divided
    by the size of a whole token. -/
theorem Stored.exists_deriveStats_eq :
    ∃ (factor : Decimal) (finish : Decimal → Decimal → Decimal → Decimal → ReserveStats),
      1 ≤ factor.toRat ∧ p.deriveStats = (do
        let supplyApy ← Interest.yearlyYield (← p.supplyApr)
        let borrowApy ← Interest.yearlyYield (← p.borrowApr)
        let fees ← (← p.protocolFees) / factor
        let issued ← Decimal.ofInt p.account.collateral.totalSupply / factor
        pure (finish supplyApy borrowApy fees issued)) := by
  obtain ⟨factor, hfactor, one_le⟩ := stored.exists_mintFactor
  obtain ⟨status, hstatus⟩ := ReserveStatus.exists_ofCode known
  obtain ⟨curve, hcurve, -⟩ := RateCurve.exists_ofControlPoints stored.curve
  obtain ⟨ltv, hltv⟩ := stored.loanToValue.exists_shareOfPercent
  obtain ⟨maxBonus, hmaxBonus⟩ := stored.maxLiquidationBonus.exists_shareOfBps
  obtain ⟨minBonus, hminBonus⟩ := stored.minLiquidationBonus.exists_shareOfBps
  obtain ⟨threshold, hthreshold⟩ := stored.liquidationThreshold.exists_shareOfPercent
  obtain ⟨share, -, hshare, -⟩ := exists_kept take
  exact ⟨factor, _, one_le, by
    unfold deriveStats
    rw [hfactor, hstatus, hcurve, hltv, hmaxBonus, hminBonus, hthreshold, hshare]
    rfl⟩

variable (used : p.UsedWithin)
include used

/-- What keeps the borrow rate from being given keeps a pool from being opened. -/
theorem Stored.openReserve_of_error {fault : Fault} (failed : p.borrowApr = .error fault) :
    p.openReserve = .error fault := by
  obtain ⟨factor, finish, -, derived⟩ := stored.exists_deriveStats_eq take known
  unfold openReserve
  rw [derived, stored.supplyApr_of_error used take failed]
  rfl

theorem Stored.exists_openReserve (some : p.config.borrowRateCurve ≠ [])
    (duration : 100 ≤ p.slotDuration) : ∃ r, p.openReserve = .ok r := by
  obtain ⟨factor, finish, one_le, derived⟩ := stored.exists_deriveStats_eq take known
  obtain ⟨supplyApr, hsupplyApr, supply_nonneg, supply_le⟩ :=
    stored.exists_supplyApr used take some duration
  obtain ⟨supplyApy, hsupplyApy⟩ := Interest.exists_yearlyYield supply_nonneg supply_le
  obtain ⟨borrowApr, hborrowApr, borrow_nonneg, borrow_le⟩ :=
    stored.exists_borrowApr used some duration
  obtain ⟨borrowApy, hborrowApy⟩ := Interest.exists_yearlyYield borrow_nonneg borrow_le
  obtain ⟨fees, hfees, fees_le⟩ := ScaledFraction.exists_decode stored.protocolFees
  obtain ⟨wholeFees, hwholeFees⟩ :=
    exists_div_of_one_le (lt_limit_of_le_wordLimit fees_le) one_le
  obtain ⟨issued, hissued⟩ :=
    exists_div_of_one_le (lt_limit_of_le_wordLimit stored.collateral.size) one_le
  unfold openReserve
  rw [derived]
  simp only [bind_eq_ok_iff]
  exact ⟨_, _, ⟨supplyApr, hsupplyApr, supplyApy, hsupplyApy, borrowApr, hborrowApr, borrowApy,
    hborrowApy, fees, hfees, wholeFees, hwholeFees, issued, hissued, rfl⟩, rfl⟩

end

/-- What is stored in range is opened unless there is a reason against it, and the first reason
    is the fault. -/
theorem openReserve_ends {p : Pool} (stored : p.Stored)
    (take : 0 ≤ p.config.protocolTakeRatePct ∧ p.config.protocolTakeRatePct ≤ 100)
    (used : p.UsedWithin) (duration : p.slotDuration = 0 ∨ 100 ≤ p.slotDuration) :
    match p.refusal? with
    | some fault => p.openReserve = .error fault
    | none => ∃ r, p.openReserve = .ok r := by
  unfold refusal?
  by_cases known : p.config.status ∈ ([0, 1, 2] : List ℤ)
  · rw [if_neg (not_not.mpr known)]
    by_cases none : p.config.borrowRateCurve = []
    · rw [if_pos none]
      exact stored.openReserve_of_error take known used
        (stored.borrowApr_of_no_curve used none)
    · rw [if_neg none]
      rcases duration with stopped | duration
      · rw [if_pos stopped]
        exact stored.openReserve_of_error take known used
          (stored.borrowApr_of_stopped used none stopped)
      · rw [if_neg (by omega)]
        exact stored.exists_openReserve take known used none duration
  · rw [if_pos known]
    exact stored.openReserve_of_unknown known

end Pool

namespace Sample

def poolWith (status : Int) (curve : List ControlPoint) (duration : Int) : Pool where
  address := "reserve"
  account := { account with config := { account.config with status, borrowRateCurve := curve } }
  price := pool.price
  slotDuration := duration

theorem stored_poolWith (status duration : ℤ) (curve : List ControlPoint)
    (stored : ∀ c ∈ curve, 0 ≤ c.utilizationBps ∧ c.utilizationBps < 2 ^ 128 ∧
      0 ≤ c.borrowRateBps ∧ c.borrowRateBps < 2 ^ 32) :
    (poolWith status curve duration).Stored := by
  have word (n : ℤ) (small : 0 ≤ n ∧ n < 2 ^ 128) : IsWord n := isWord_of_lt small.1 small.2
  exact {
    available := word account.liquidity.availableAmount (by decide)
    borrowed := word account.liquidity.rawBorrowed (by decide)
    protocolFees := word account.liquidity.rawProtocolFees (by decide)
    referrerFees := word account.liquidity.rawReferrerFees (by decide)
    pendingReferrerFees := word account.liquidity.rawPendingReferrerFees (by decide)
    collateral := word account.collateral.totalSupply (by decide)
    loanToValue := word account.config.loanToValuePct (by decide)
    liquidationThreshold := word account.config.liquidationThresholdPct (by decide)
    maxLiquidationBonus := word account.config.maxLiquidationBonusBps (by decide)
    minLiquidationBonus := word account.config.minLiquidationBonusBps (by decide)
    mintDecimals := (by decide : 0 ≤ account.liquidity.mintDecimals ∧
      account.liquidity.mintDecimals < 256)
    curve := fun c listed =>
      have point := stored c listed
      ⟨word c.utilizationBps ⟨point.1, point.2.1⟩, point.2.2⟩ }

theorem usedWithin_poolWith (status duration : ℤ) (curve : List ControlPoint) :
    (poolWith status curve duration).UsedWithin := by
  intro debt supply hdebt hsupply
  cases hdebt.symm.trans (by decide +kernel : pool.borrowed = .ok ⟨false, 3, 9⟩)
  cases hsupply.symm.trans (by decide +kernel : pool.totalSupply = .ok ⟨false, 3999998, 3⟩)
  exact truncate_share_mem (by decide +kernel) (by decide +kernel) (by decide +kernel)

end Sample

namespace Pool

open Sample in
/-- With everything wrong at once it is the status that is reported, and then the curve. -/
theorem openReserve_ends_sample :
    (∃ r, (poolWith 0 pool.config.borrowRateCurve 450).openReserve = .ok r) ∧
      (poolWith 3 [] 0).openReserve = .error (.unknownReserveStatus 3) ∧
      (poolWith 2 [] 0).openReserve = .error .emptyCurve ∧
      (poolWith 1 pool.config.borrowRateCurve 0).openReserve = .error .divisionByZero :=
  ⟨openReserve_ends (stored_poolWith 0 450 pool.config.borrowRateCurve (by decide)) (by decide)
      (usedWithin_poolWith _ _ _) (.inr (by decide)),
    openReserve_ends (stored_poolWith 3 0 [] (by decide)) (by decide)
      (usedWithin_poolWith _ _ _) (.inl rfl),
    openReserve_ends (stored_poolWith 2 0 [] (by decide)) (by decide)
      (usedWithin_poolWith _ _ _) (.inl rfl),
    openReserve_ends (stored_poolWith 1 0 pool.config.borrowRateCurve (by decide)) (by decide)
      (usedWithin_poolWith _ _ _) (.inl rfl)⟩

end Pool

end Lending
