/-
  Lending.Proofs.Obligation.LimitOrder — borrow limit, liquidation limit and deposits in order.

  On terms in order, a loan-to-value no higher than the liquidation threshold and that no higher
  than one, a deposit adds no more to the borrow limit than to the liquidation limit, and no more
  to that than to the total. Cutting never reverses an order, so one deposit keeps the limits in
  order (`LimitOrder.step`). From that follow the totals of an account, whatever its slots
  (`Market.valueDeposits_inOrder`), and every run of simulated deposits, whatever obligations and
  markets they are simulated on (`Scenario.Deposited.inOrder`). `limits_in_order` puts both
  together.
-/
import Lending.Proofs.Obligation.Legs
import Lending.Proofs.Obligation.Revaluable

namespace Lending

open Outcome Truncation

/-! ## Terms -/

structure PercentsInOrder (loanToValue liquidationThreshold : ℤ) : Prop where
  loanToValue_nonneg : 0 ≤ loanToValue
  loanToValue_le : loanToValue ≤ liquidationThreshold
  liquidationThreshold_le : liquidationThreshold ≤ 100

/-- A market of opened reserves whose prices are not negative and whose percents are in order,
    those of its groups too. -/
structure Market.InOrder (m : Market) : Prop where
  opened : m.Opened
  price : ∀ r ∈ m.reserves.values, 0 ≤ r.oraclePrice.toRat
  reserves : ∀ r ∈ m.reserves.values,
    PercentsInOrder r.config.loanToValuePct r.config.liquidationThresholdPct
  groups : ∀ g ∈ m.account.elevationGroups, PercentsInOrder g.ltvPct g.liquidationThresholdPct

structure CollateralTerms.InOrder (terms : CollateralTerms) : Prop where
  loanToValue_nonneg : 0 ≤ terms.loanToValue.toRat
  loanToValue_le : terms.loanToValue.toRat ≤ terms.liquidationThreshold.toRat
  liquidationThreshold_le : terms.liquidationThreshold.toRat ≤ 1

theorem CollateralTerms.inOrder_of_percents {terms : CollateralTerms} {ltv threshold : ℤ}
    (percents : PercentsInOrder ltv threshold)
    (ltv_eq : shareOfPercent ltv = .ok terms.loanToValue)
    (threshold_eq : shareOfPercent threshold = .ok terms.liquidationThreshold) :
    terms.InOrder := by
  have ltv_nonneg : (0 : ℚ) ≤ ltv := by exact_mod_cast percents.loanToValue_nonneg
  have ltv_le : (ltv : ℚ) ≤ threshold := by exact_mod_cast percents.loanToValue_le
  have threshold_le : (threshold : ℚ) ≤ 100 := by exact_mod_cast percents.liquidationThreshold_le
  refine ⟨?_, ?_, ?_⟩
  · rw [shareOfPercent_value ltv_eq]
    exact truncate_nonneg (div_nonneg ltv_nonneg (by norm_num))
  · rw [shareOfPercent_value ltv_eq, shareOfPercent_value threshold_eq]
    exact truncate_mono (div_le_div_of_nonneg_right ltv_le (by norm_num))
  · rw [shareOfPercent_value threshold_eq]
    exact (truncate_share_mem (ltv_nonneg.trans ltv_le) threshold_le (by norm_num)).2

/-- Inside a group and outside of any. -/
theorem Market.InOrder.terms {m : Market} (ordered : m.InOrder) {group : ℤ} {r : Reserve}
    {terms : CollateralTerms} (listed : r ∈ m.reserves.values)
    (h : m.collateralTerms group r = .ok terms) : terms.InOrder := by
  unfold collateralTerms at h
  split at h
  · cases h
    have kept := Pool.settings_of_openReserve (ordered.opened r listed)
    exact CollateralTerms.inOrder_of_percents (ordered.reserves r listed) kept.loanToValue
      kept.liquidationThreshold
  · simp only [bind_eq_ok_iff] at h
    obtain ⟨g, hg, ltv, hltv, threshold, hthreshold, h⟩ := h
    cases h
    have found := ofOption_eq_ok_iff.mp hg
    split at found
    · cases found
    · exact CollateralTerms.inOrder_of_percents (ordered.groups g (List.mem_of_getElem? found))
        hltv hthreshold

/-! ## One deposit -/

structure LimitOrder (borrowLimit liquidationLimit total : ℚ) : Prop where
  borrowLimit_nonneg : 0 ≤ borrowLimit
  borrowLimit_le : borrowLimit ≤ liquidationLimit
  liquidationLimit_le : liquidationLimit ≤ total

theorem LimitOrder.liquidationLimit_nonneg {limit liquidation total : ℚ}
    (h : LimitOrder limit liquidation total) : 0 ≤ liquidation :=
  h.borrowLimit_nonneg.trans h.borrowLimit_le

theorem LimitOrder.total_nonneg {limit liquidation total : ℚ}
    (h : LimitOrder limit liquidation total) : 0 ≤ total :=
  h.liquidationLimit_nonneg.trans h.liquidationLimit_le

/-- What a deposit adds to the limits and to the total is in order too. -/
theorem CollateralTerms.InOrder.parts {terms : CollateralTerms} (ordered : terms.InOrder)
    {value : ℚ} (nonneg : 0 ≤ value) (exact : Representable value) :
    LimitOrder (truncate (value * terms.loanToValue.toRat))
      (truncate (value * terms.liquidationThreshold.toRat)) value where
  borrowLimit_nonneg := truncate_nonneg (mul_nonneg nonneg ordered.loanToValue_nonneg)
  borrowLimit_le := truncate_mono (mul_le_mul_of_nonneg_left ordered.loanToValue_le nonneg)
  liquidationLimit_le :=
    exact.truncate_le (mul_le_of_le_one_right nonneg ordered.liquidationThreshold_le)

theorem LimitOrder.step {limit liquidation total limit' liquidation' total' : ℚ}
    (before : LimitOrder limit liquidation total) (added : LimitOrder limit' liquidation' total') :
    LimitOrder (truncate (limit + limit')) (truncate (liquidation + liquidation'))
      (truncate (total + total')) where
  borrowLimit_nonneg :=
    truncate_nonneg (add_nonneg before.borrowLimit_nonneg added.borrowLimit_nonneg)
  borrowLimit_le := truncate_mono (add_le_add before.borrowLimit_le added.borrowLimit_le)
  liquidationLimit_le :=
    truncate_mono (add_le_add before.liquidationLimit_le added.liquidationLimit_le)

/-- The threshold that a whole obligation has is a share. -/
theorem LimitOrder.ratio_mem {limit : ℚ} {liquidation total ratio : Decimal}
    (ordered : LimitOrder limit liquidation.toRat total.toRat)
    (h : Decimal.ratioOrZero liquidation total = .ok ratio) :
    0 ≤ ratio.toRat ∧ ratio.toRat ≤ 1 := by
  refine ⟨ratioOrZero_nonneg ordered.liquidationLimit_nonneg ordered.total_nonneg h, ?_⟩
  unfold Decimal.ratioOrZero at h
  split at h
  · cases h
    rw [Decimal.toRat_zero]
    exact zero_le_one
  · rw [(div_value h).2]
    exact representable_one.truncate_le
      (div_le_one_of_le₀ ordered.liquidationLimit_le ordered.total_nonneg)

/-! ## Accounts -/

structure DepositTotals.InOrder (t : DepositTotals) : Prop extends
    LimitOrder t.borrowLimit.toRat t.liquidationLimit.toRat t.total.toRat where
  borrowLimit_le_collateral : t.borrowLimit.toRat ≤ t.collateral.toRat
  collateral_le : t.collateral.toRat ≤ t.total.toRat
  collateral_exact : Representable t.collateral.toRat

theorem DepositTotals.inOrder_empty : ({} : DepositTotals).InOrder := by
  have zero : (0 : Decimal).toRat ≤ (0 : Decimal).toRat := le_rfl
  exact ⟨⟨Decimal.toRat_zero.ge, zero, zero⟩, zero, zero, Decimal.toRat_zero ▸ representable_zero⟩

theorem DepositTotals.InOrder.addValue {t next : DepositTotals} {terms : CollateralTerms}
    {p : Position} (before : t.InOrder) (ordered : terms.InOrder) (nonneg : 0 ≤ p.value.toRat)
    (exact : Representable p.value.toRat) (h : t.addValue terms p = .ok next) : next.InOrder := by
  rw [addValue_eq] at h
  simp only [bind_eq_ok_iff] at h
  obtain ⟨total, htotal, collateral, hcollateral, lent, hlent, limit, hlimit, backed, hbacked,
    liquidation, hliquidation, h⟩ := h
  cases h
  have parts := ordered.parts nonneg exact
  have limits : LimitOrder limit.toRat liquidation.toRat total.toRat := by
    rw [add_value hlimit, add_value hliquidation, add_value htotal, mul_value hlent,
      mul_value hbacked]
    exact before.toLimitOrder.step parts
  split at hcollateral
  · -- what counts for nothing adds nothing to the borrow limit
    rename_i none
    cases hcollateral
    refine ⟨limits, ?_, ?_, before.collateral_exact⟩
    · rw [add_value hlimit, mul_value hlent, (Decimal.isZero_iff _).mp none, mul_zero,
        truncate_zero, add_zero]
      exact (truncate_le before.borrowLimit_nonneg).trans before.borrowLimit_le_collateral
    · rw [add_value htotal]
      exact before.collateral_exact.le_truncate (before.collateral_le.trans
        (le_add_of_nonneg_right nonneg))
  · refine ⟨limits, ?_, ?_, ?_⟩
    · rw [add_value hlimit, add_value hcollateral, mul_value hlent]
      exact truncate_mono (add_le_add before.borrowLimit_le_collateral
        (parts.borrowLimit_le.trans parts.liquidationLimit_le))
    · rw [add_value hcollateral, add_value htotal]
      exact truncate_mono (add_le_add_left before.collateral_le _)
    · rw [add_value hcollateral]
      exact representable_truncate _

structure ObligationAccount.Positive (a : ObligationAccount) (m : Market)
    (rates : Option RateMap) : Prop where
  deposited : ∀ s ∈ a.usedDeposits, 0 ≤ s.depositedAmount
  exchangeRates : ∀ s ∈ a.usedDeposits, ∀ r rate, m.reserveAt? s.reserve = some r →
    rateOf rates r r.exchangeRate = .ok rate → 0 < rate.toRat

theorem CollateralSlot.valued_inOrder {m : Market} (ordered : m.InOrder) {a : ObligationAccount}
    {rates : Option RateMap} (positive : a.Positive m rates) {group : ℤ} {s : CollateralSlot}
    (used : s ∈ a.usedDeposits) {v : CollateralTerms × Position}
    (h : s.valued m group rates = .ok v) :
    v.1.InOrder ∧ 0 ≤ v.2.value.toRat ∧ Representable v.2.value.toRat := by
  obtain ⟨r, rate, factor, worth⟩ := s.worth h
  have listed := AddressMap.mem_values_of_find? worth.reserveAt
  have rate_pos := positive.exchangeRates s used r rate worth.reserveAt worth.rate_eq
  refine ⟨ordered.terms listed worth.terms_eq, ?_, s.representable_value h⟩
  rw [worth.value]
  refine scaleBy_nonneg (List.forall_mem_append.mpr ⟨collateralSteps_nonneg rate_pos.le,
    Pool.dollarSteps_nonneg (ordered.price r listed) worth.factor_eq⟩) ?_
  exact_mod_cast positive.deposited s used

theorem Market.valueDeposits_inOrder {m : Market} (ordered : m.InOrder) {a : ObligationAccount}
    {rates : Option RateMap} (positive : a.Positive m rates) {d : DepositStats}
    (h : m.valueDeposits a rates = .ok d) :
    d.toDepositTotals.InOrder ∧ 0 ≤ d.liquidationLtv.toRat ∧ d.liquidationLtv.toRat ≤ 1 := by
  obtain ⟨t, run, h⟩ := bind_eq_ok_iff.mp h
  obtain ⟨ltv, ratio, h⟩ := bind_eq_ok_iff.mp h
  cases h
  have totals : t.InOrder := by
    refine foldlM_invariant_of_mem (P := DepositTotals.InOrder) (fun t s used next before added => ?_)
      DepositTotals.inOrder_empty run
    rw [DepositTotals.addSlot_eq] at added
    obtain ⟨v, valued, added⟩ := bind_eq_ok_iff.mp added
    obtain ⟨terms, nonneg, exact⟩ := CollateralSlot.valued_inOrder ordered positive used valued
    exact before.addValue terms nonneg exact added
  exact ⟨totals, totals.toLimitOrder.ratio_mem ratio⟩

/-! ## Simulated deposits -/

structure ObligationStats.InOrder (s : ObligationStats) : Prop extends
    LimitOrder s.borrowLimit.toRat s.liquidationLimit.toRat s.totalDeposit.toRat where
  liquidationLtv_nonneg : 0 ≤ s.liquidationLtv.toRat
  liquidationLtv_le : s.liquidationLtv.toRat ≤ 1

namespace Scenario

def Deposits (s s' : Scenario) : Prop :=
  ∃ (o : Obligation) (m : Market) (amount : Decimal) (mint : String),
    m.InOrder ∧ 0 ≤ amount.toRat ∧ o.addDeposit m s amount mint = .ok s'

def Deposited : Scenario → Scenario → Prop := Relation.ReflTransGen Deposits

theorem Deposits.inOrder {s s' : Scenario} (h : s.Deposits s') (before : s.stats.InOrder) :
    s'.stats.InOrder := by
  obtain ⟨o, m, amount, mint, ordered, nonneg, deposited⟩ := h
  obtain ⟨r, terms, value, changed, step⟩ := Obligation.addDeposit_step deposited
  have listed := (Market.mint_of_reserveOfMint step.reserve_eq).1
  have value_nonneg := Pool.valueOf_nonneg (ordered.price r listed) nonneg step.value_eq
  have parts := (ordered.terms listed step.terms_eq).parts value_nonneg
    (Pool.representable_valueOf step.value_eq)
  have limits : LimitOrder s'.stats.borrowLimit.toRat s'.stats.liquidationLimit.toRat
      s'.stats.totalDeposit.toRat := by
    rw [step.borrowLimit, step.liquidationLimit, step.totalDeposit,
      moved_of_nonneg (add_nonneg before.borrowLimit_nonneg parts.borrowLimit_nonneg),
      moved_of_nonneg (add_nonneg before.liquidationLimit_nonneg parts.liquidationLimit_nonneg),
      moved_of_nonneg (add_nonneg before.total_nonneg value_nonneg)]
    exact before.toLimitOrder.step parts
  obtain ⟨ltv_nonneg, ltv_le⟩ := limits.ratio_mem step.liquidationLtv
  exact ⟨limits, ltv_nonneg, ltv_le⟩

/-- Whatever was deposited since. -/
theorem Deposited.inOrder {s s' : Scenario} (h : s.Deposited s') (before : s.stats.InOrder) :
    s'.stats.InOrder := by
  induction h with
  | refl => exact before
  | tail _ deposit ih => exact deposit.inOrder ih

end Scenario

/-! ## Obligations -/

/-- What an obligation says of its deposits is what valuing them gave. -/
theorem Obligation.deposits_of_value {m : Market} {address : String} {a : ObligationAccount}
    {cr br : Option RateMap} {o : Obligation} (h : value m address a cr br = .ok o) :
    ∃ d, m.valueDeposits a cr = .ok d ∧ o.stats.totalDeposit = d.total ∧
      o.stats.borrowLimit = d.borrowLimit ∧ o.stats.liquidationLimit = d.liquidationLimit ∧
      o.stats.liquidationLtv = d.liquidationLtv := by
  unfold value at h
  simp only [bind_eq_ok_iff] at h
  obtain ⟨_, -, d, hd, _, -, _, -, _, -, _, -, _, -, h⟩ := h
  cases h
  exact ⟨d, hd, rfl, rfl, rfl, rfl⟩

/-- On terms in order the limits of an obligation are in order, its collateral lies between them
    and all that was deposited, and no run of simulated deposits changes that. -/
theorem limits_in_order {m : Market} (ordered : m.InOrder) {address : String}
    {a : ObligationAccount} {cr br : Option RateMap} (positive : a.Positive m cr)
    {o : Obligation} (valued : Obligation.value m address a cr br = .ok o) :
    o.stats.InOrder ∧
    (∃ d, m.valueDeposits a cr = .ok d ∧ d.toDepositTotals.InOrder ∧
      o.stats.totalDeposit = d.total ∧ o.stats.borrowLimit = d.borrowLimit ∧
      o.stats.liquidationLimit = d.liquidationLimit ∧ o.stats.liquidationLtv = d.liquidationLtv) ∧
    ∀ s s' : Scenario, s.Deposited s' → s.stats.InOrder → s'.stats.InOrder := by
  obtain ⟨d, given, total, limit, liquidation, ltv⟩ := Obligation.deposits_of_value valued
  obtain ⟨totals, ltv_nonneg, ltv_le⟩ := Market.valueDeposits_inOrder ordered positive given
  have stats : o.stats.InOrder := by
    refine ⟨?_, ltv ▸ ltv_nonneg, ltv ▸ ltv_le⟩
    rw [limit, liquidation, total]
    exact totals.toLimitOrder
  exact ⟨stats, ⟨d, given, totals, total, limit, liquidation, ltv⟩,
    fun _ _ deposited => deposited.inOrder⟩

theorem Market.inOrder_sample : Sample.market.InOrder where
  opened := by decide +kernel
  price := by decide +kernel
  reserves := by
    intro r listed
    rw [List.mem_singleton.mp listed]
    exact ⟨by decide, by decide, by decide⟩
  groups := by
    intro g configured
    cases configured

/-- With another million base units deposited. -/
theorem limits_in_order_sample :
    Sample.obligation.stats.InOrder ∧
    ∃ s, Sample.obligation.addDeposit Sample.market Sample.obligation.scenario 1000000 "token" =
      .ok s ∧ s.stats.InOrder := by
  have positive : Sample.borrower.Positive Sample.market none := by
    refine ⟨by decide, fun s _ r rate found rated => ?_⟩
    exact revaluable_sample.exchangeRates r (AddressMap.mem_values_of_find? found) rate rated
  obtain ⟨before, -, run⟩ :=
    limits_in_order Market.inOrder_sample positive revaluable_sample.valued
  obtain ⟨s, added⟩ := exists_of_isOk (show (Sample.obligation.addDeposit Sample.market
    Sample.obligation.scenario 1000000 "token").isOk by decide +kernel)
  have deposits : Sample.obligation.scenario.Deposits s :=
    ⟨_, _, _, _, Market.inOrder_sample, by decide +kernel, added⟩
  exact ⟨before, s, added, run _ s (.single deposits) before⟩

end Lending
