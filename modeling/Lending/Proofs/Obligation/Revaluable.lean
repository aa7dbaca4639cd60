/-
  Lending.Proofs.Obligation.Revaluable — obligations whose figures have the sign they should.

  With prices, terms and weights that are not negative, and rates that are positive, every
  figure of a valued slot is not negative (`Revaluable.deposit_nonneg`,
  `Revaluable.borrow_nonneg`).
-/
import Lending.Obligation.Sample
import Lending.Proofs.Obligation.Totals

namespace Lending

open Outcome Truncation

/-! ## Markets -/

structure Market.Unsigned (m : Market) : Prop where
  price : ∀ r ∈ m.reserves.values, 0 ≤ r.oraclePrice.toRat
  loanToValue : ∀ r ∈ m.reserves.values, 0 ≤ r.stats.loanToValue.toRat
  liquidationThreshold : ∀ r ∈ m.reserves.values, 0 ≤ r.stats.liquidationThreshold.toRat
  borrowFactor : ∀ r ∈ m.reserves.values, 0 ≤ r.stats.borrowFactorPct
  groups : ∀ g ∈ m.account.elevationGroups, 0 ≤ g.ltvPct ∧ 0 ≤ g.liquidationThresholdPct

theorem share_nonneg {n : ℤ} {x : Decimal} (nonneg : 0 ≤ n)
    (h : (Decimal.ofInt n / (100 : Decimal) : Outcome Decimal) = .ok x) : 0 ≤ x.toRat := by
  rw [(div_value h).2, Decimal.toRat_ofInt, Decimal.toRat_ofNat]
  exact truncate_nonneg (div_nonneg (by exact_mod_cast nonneg) (by norm_num))

theorem Market.Unsigned.terms_nonneg {m : Market} (unsigned : m.Unsigned) {group : ℤ} {r : Reserve}
    {terms : CollateralTerms} (listed : r ∈ m.reserves.values)
    (h : m.collateralTerms group r = .ok terms) :
    0 ≤ terms.loanToValue.toRat ∧ 0 ≤ terms.liquidationThreshold.toRat := by
  unfold collateralTerms at h
  split at h
  · cases h
    exact ⟨unsigned.loanToValue r listed, unsigned.liquidationThreshold r listed⟩
  · simp only [bind_eq_ok_iff] at h
    obtain ⟨g, hg, ltv, hltv, threshold, hthreshold, h⟩ := h
    cases h
    have found := ofOption_eq_ok_iff.mp hg
    split at found
    · cases found
    · obtain ⟨ltv_nonneg, threshold_nonneg⟩ := unsigned.groups g (List.mem_of_getElem? found)
      exact ⟨share_nonneg ltv_nonneg hltv, share_nonneg threshold_nonneg hthreshold⟩

theorem Market.Unsigned.weight_nonneg {m : Market} (unsigned : m.Unsigned) {group : ℤ} {r : Reserve}
    {weight : Decimal} (listed : r ∈ m.reserves.values) (h : r.debtWeight group = .ok weight) :
    0 ≤ weight.toRat := by
  unfold Reserve.debtWeight at h
  split at h
  · cases h
    rw [Decimal.toRat_one]
    exact zero_le_one
  · exact share_nonneg (unsigned.borrowFactor r listed) h

theorem Market.Unsigned.dollarSteps_nonneg {m : Market} (unsigned : m.Unsigned) {r : Reserve}
    {factor : Decimal} (listed : r ∈ m.reserves.values) (h : r.mintFactor = .ok factor) :
    ∀ step ∈ r.dollarSteps factor, 0 ≤ step :=
  Pool.dollarSteps_nonneg (unsigned.price r listed) h

theorem collateralSteps_nonneg {rate : Decimal} (h : 0 ≤ rate.toRat) :
    ∀ step ∈ collateralSteps rate, 0 ≤ step := by
  simp [collateralSteps, h]

theorem debtSteps_nonneg {rate recordedRate : Decimal} (h : 0 ≤ rate.toRat)
    (h' : 0 ≤ recordedRate.toRat) : ∀ step ∈ debtSteps rate recordedRate, 0 ≤ step := by
  have unit : 0 ≤ ScaledFraction.scale⁻¹ := by norm_num [ScaledFraction.scale]
  simp [debtSteps, h, h', unit]

/-! ## Obligations -/

/-- An obligation valued in a market with one reserve for each token, all figures of which have
    the sign they should have. -/
structure Revaluable (m : Market) (cr br : Option RateMap) (o : Obligation) : Prop where
  keyed : m.Keyed
  onePerMint : m.OnePerMint
  unsigned : m.Unsigned
  exchangeRates : ∀ r ∈ m.reserves.values, ∀ rate, rateOf cr r r.exchangeRate = .ok rate →
    0 < rate.toRat
  borrowRates : ∀ r ∈ m.reserves.values, ∀ rate, rateOf br r r.cumulativeBorrowRate = .ok rate →
    0 < rate.toRat
  deposited : ∀ s ∈ o.account.usedDeposits, 0 ≤ s.depositedAmount
  deposits : (o.account.usedDeposits.map (·.reserve)).Nodup
  borrows : (o.account.usedBorrows.map (·.reserve)).Nodup
  valued : Obligation.value m o.address o.account cr br = .ok o

theorem revaluable_sample : Revaluable Sample.market none none Sample.obligation where
  keyed := by decide
  onePerMint := by decide
  unsigned := ⟨by decide +kernel, by decide +kernel, by decide +kernel, by decide, by decide⟩
  exchangeRates := by
    intro r listed rate rate_eq
    rw [List.mem_singleton.mp listed] at rate_eq
    cases (show Sample.reserve.exchangeRate = .ok Sample.rate by
      decide +kernel).symm.trans rate_eq
    decide +kernel
  borrowRates := by
    intro r listed rate rate_eq
    rw [List.mem_singleton.mp listed] at rate_eq
    cases (show Sample.reserve.cumulativeBorrowRate = .ok ⟨false, 11, -1⟩ by
      decide +kernel).symm.trans rate_eq
    decide +kernel
  deposited := by decide
  deposits := by decide
  borrows := by decide
  valued := by decide +kernel

section
variable {m : Market} {cr br : Option RateMap} {o : Obligation} {group : ℤ}
  (fit : Revaluable m cr br o)
include fit

theorem Revaluable.deposits_known : ∀ s ∈ o.account.usedDeposits,
    (s.valued m o.account.elevationGroup cr).OverflowOnly ∧
      ∃ r, m.reserveAt? s.reserve = some r := by
  obtain ⟨-, ds, bs, hds, -, -⟩ := Obligation.value_sums fit.valued
  intro s used
  obtain ⟨v, valued⟩ := exists_mapM_eq_ok_iff.mp ⟨ds, hds⟩ s used
  obtain ⟨r, _, _, worth⟩ := s.worth valued
  exact ⟨.of_eq valued, r, worth.reserveAt⟩

theorem Revaluable.borrows_known : ∀ s ∈ o.account.usedBorrows,
    ((s.valued m o.account.elevationGroup br).OverflowOnly ∧
      ∃ r, m.reserveAt? s.reserve = some r) ∧ 0 ≤ s.rawBorrowed := by
  obtain ⟨-, ds, bs, -, hbs, -⟩ := Obligation.value_sums fit.valued
  intro s used
  obtain ⟨v, valued⟩ := exists_mapM_eq_ok_iff.mp ⟨bs, hbs⟩ s used
  obtain ⟨r, _, _, _, worth⟩ := s.worth valued
  exact ⟨⟨.of_eq valued, r, worth.reserveAt⟩, worth.recorded⟩

theorem Revaluable.deposit_nonneg {ds : List (CollateralTerms × Position)}
    (h : o.account.usedDeposits.mapM (CollateralSlot.valued m group cr) = .ok ds) :
    ∀ v ∈ ds, (0 ≤ v.2.value.toRat ∧ Representable v.2.value.toRat) ∧
      0 ≤ v.1.loanToValue.toRat ∧ 0 ≤ v.1.liquidationThreshold.toRat := by
  intro v listed
  obtain ⟨s, used, valued⟩ := exists_of_mem_mapM h listed
  obtain ⟨r, rate, factor, worth⟩ := s.worth valued
  have held := AddressMap.mem_values_of_find? worth.reserveAt
  have rate_pos := fit.exchangeRates r held rate worth.rate_eq
  refine ⟨?_, fit.unsigned.terms_nonneg held worth.terms_eq⟩
  have steps := List.forall_mem_append.mpr ⟨collateralSteps_nonneg rate_pos.le,
    fit.unsigned.dollarSteps_nonneg held worth.factor_eq⟩
  refine ⟨?_, s.representable_value valued⟩
  rw [worth.value]
  exact scaleBy_nonneg steps (by exact_mod_cast fit.deposited s used)

theorem Revaluable.borrow_nonneg {bs : List (Decimal × Position)}
    (h : o.account.usedBorrows.mapM (DebtSlot.valued m group br) = .ok bs) :
    ∀ v ∈ bs, (0 ≤ v.2.value.toRat ∧ Representable v.2.value.toRat) ∧ 0 ≤ v.1.toRat := by
  intro v listed
  obtain ⟨s, used, valued⟩ := exists_of_mem_mapM h listed
  obtain ⟨r, rate, recordedRate, factor, worth⟩ := s.worth valued
  have held := AddressMap.mem_values_of_find? worth.reserveAt
  have rate_pos := fit.borrowRates r held rate worth.rate_eq
  refine ⟨?_, fit.unsigned.weight_nonneg held worth.weight_eq⟩
  have recorded_nonneg := ScaledFraction.decode_nonneg worth.recordedRate_eq
  have steps := List.forall_mem_append.mpr ⟨debtSteps_nonneg rate_pos.le recorded_nonneg,
    fit.unsigned.dollarSteps_nonneg held worth.factor_eq⟩
  refine ⟨?_, s.representable_value valued⟩
  rw [worth.value]
  exact scaleBy_nonneg steps (by exact_mod_cast worth.recorded)

end

end Lending
