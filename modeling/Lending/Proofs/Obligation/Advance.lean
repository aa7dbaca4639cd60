/-
  Lending.Proofs.Obligation.Advance — an obligation loaded for two slots.

  The loader brings the debt of each slot up to date by the index of its reserve. So from one
  slot to a later one no position shrinks (`DebtSlot.valued_grown`), neither do the sums over
  them (`borrowsGrow_of_loads`).
-/
import Lending.Obligation.Sample
import Lending.Proofs.Obligation.Batch
import Lending.Proofs.Obligation.Revaluable
import Lending.Proofs.Reserve.Advance

namespace Lending

open Outcome Truncation

structure Position.Grown (p p' : Position) : Prop where
  reserve : p.reserve = p'.reserve
  mint : p.mint = p'.mint
  amount : p.amount.toRat ≤ p'.amount.toRat
  value : p.value.toRat ≤ p'.value.toRat

structure Obligation.BorrowsGrow (o o' : Obligation) : Prop where
  positions : List.Forall₂ (fun entry entry' => entry.1 = entry'.1 ∧ entry.2.Grown entry'.2)
    o.borrows.entries o'.borrows.entries
  totalBorrow : o.stats.totalBorrow.toRat ≤ o'.stats.totalBorrow.toRat
  weightedBorrow : o.stats.weightedBorrow.toRat ≤ o'.stats.weightedBorrow.toRat

theorem positionMap_grown {positions positions' : List Position}
    (grown : List.Forall₂ Position.Grown positions positions') :
    List.Forall₂ (fun entry entry' : String × Position => entry.1 = entry'.1 ∧
      entry.2.Grown entry'.2) (positionMap positions).entries (positionMap positions').entries := by
  refine AddressMap.forall₂_ofList (fun entry entry' same => same.1) ?_
  rw [List.forall₂_map_left_iff, List.forall₂_map_right_iff]
  exact grown.imp fun p p' more => ⟨more.reserve, more⟩

theorem Reserve.Accrues.weight_nonneg {r : Reserve} (h : r.Accrues) {group : ℤ} {weight : Decimal}
    (weighed : r.debtWeight group = .ok weight) : 0 ≤ weight.toRat := by
  unfold debtWeight at weighed
  split at weighed
  · cases weighed
    rw [Decimal.toRat_one]
    exact zero_le_one
  · refine share_nonneg ?_ weighed
    rw [(Pool.settings_of_openReserve h.opened).borrowFactorPct]
    exact h.borrowFactor

section
variable {m : Market} (keyed : m.Keyed) {a : ObligationAccount} {s₁ s₂ : ℤ} (le : s₁ ≤ s₂)
  {maps₁ maps₂ : RateMaps} (agrees₁ : maps₁.Agrees m s₁) (agrees₂ : maps₂.Agrees m s₂)

/-- The rate that the maps give a borrowed reserve is its index at the slot. -/
theorem RateMaps.Agrees.index_eq {maps : RateMaps} {slot : ℤ} (keyed : m.Keyed)
    (agrees : maps.Agrees m slot) {r : Reserve} {address : String} {own : Outcome Decimal}
    {rate : Decimal} (found : m.reserveAt? address = some r)
    (rated : rateOf (some maps.borrow) r own = .ok rate) :
    r.cumulativeBorrowRateAt slot = .ok rate := by
  have entered := agrees.borrow _ _ (rateOf_some_eq_ok_iff.mp rated)
  rwa [keyed.address_eq found, Market.borrowRateAt_eq found] at entered

include keyed le agrees₁ agrees₂

theorem DebtSlot.valued_grown {group : ℤ} {slot : DebtSlot} {v₁ v₂ : Decimal × Position}
    (accrues : ∀ r, m.reserveAt? slot.reserve = some r → r.Accrues)
    (h₁ : slot.valued m group (some maps₁.borrow) = .ok v₁)
    (h₂ : slot.valued m group (some maps₂.borrow) = .ok v₂) :
    v₁.2.Grown v₂.2 ∧
      truncate (v₁.2.value.toRat * v₁.1.toRat) ≤ truncate (v₂.2.value.toRat * v₂.1.toRat) := by
  obtain ⟨r, rate₁, recordedRate, factor, worth₁⟩ := slot.worth h₁
  obtain ⟨own, rate₂, ownRecorded, ownFactor, worth₂⟩ := slot.worth h₂
  cases worth₁.reserveAt.symm.trans worth₂.reserveAt
  cases worth₁.recordedRate_eq.symm.trans worth₂.recordedRate_eq
  cases worth₁.factor_eq.symm.trans worth₂.factor_eq
  have h := accrues r worth₁.reserveAt
  have index₁ := agrees₁.index_eq keyed worth₁.reserveAt worth₁.rate_eq
  have index₂ := agrees₂.index_eq keyed worth₁.reserveAt worth₂.rate_eq
  have given : ∃ stored, r.cumulativeBorrowRate = .ok stored := by
    have steps := index₁
    unfold Pool.cumulativeBorrowRateAt at steps
    simp only [bind_eq_ok_iff] at steps
    obtain ⟨apr, -, growth, -, stored, hstored, -⟩ := steps
    exact ⟨stored, hstored⟩
  obtain ⟨stored, hstored⟩ := given
  obtain ⟨stored_le, rate_le⟩ := (h.debtGrows le 0).index stored rate₁ rate₂ hstored index₁ index₂
  have rate_nonneg := (ScaledFraction.decode_nonneg hstored).trans stored_le
  -- the steps to an amount differ in the rate alone, those from there to dollars not at all
  have unit : 0 ≤ ScaledFraction.scale⁻¹ := by norm_num [ScaledFraction.scale]
  have recorded_nonneg := inv_nonneg.mpr (ScaledFraction.decode_nonneg worth₁.recordedRate_eq)
  have factor_nonneg := inv_nonneg.mpr (Pool.mintFactor_nonneg worth₁.factor_eq)
  have units_nonneg : (0 : ℚ) ≤ slot.rawBorrowed := by exact_mod_cast worth₁.recorded
  have amounts : List.Forall₂ (fun factor factor' => 0 ≤ factor ∧ factor ≤ factor')
      (debtSteps rate₁ recordedRate) (debtSteps rate₂ recordedRate) :=
    .cons ⟨unit, le_rfl⟩ (.cons ⟨rate_nonneg, rate_le⟩ (.cons ⟨recorded_nonneg, le_rfl⟩ .nil))
  have dollars : List.Forall₂ (fun factor factor' : ℚ => 0 ≤ factor ∧ factor ≤ factor')
      (r.dollarSteps factor) (r.dollarSteps factor) :=
    .cons ⟨h.price, le_rfl⟩ (.cons ⟨factor_nonneg, le_rfl⟩ .nil)
  have amount_le : v₁.2.amount.toRat ≤ v₂.2.amount.toRat := by
    rw [worth₁.amount, worth₂.amount]
    exact scaleBy_mono amounts units_nonneg le_rfl
  have value_le : v₁.2.value.toRat ≤ v₂.2.value.toRat := by
    rw [worth₁.value, worth₂.value]
    exact scaleBy_mono (List.rel_append amounts dollars) units_nonneg le_rfl
  refine ⟨⟨by rw [worth₁.reserve, worth₂.reserve], by rw [worth₁.mint, worth₂.mint], amount_le,
    value_le⟩, truncate_mono ?_⟩
  have same : v₁.1 = v₂.1 := Except.ok.inj (worth₁.weight_eq.symm.trans worth₂.weight_eq)
  rw [← same]
  exact mul_le_mul_of_nonneg_right value_le (h.weight_nonneg worth₁.weight_eq)

theorem borrowsGrow_of_values {address : String} {o₁ o₂ : Obligation}
    (accrues : ∀ slot ∈ a.usedBorrows, ∀ r, m.reserveAt? slot.reserve = some r → r.Accrues)
    (h₁ : Obligation.valueWith m maps₁ address a = .ok o₁)
    (h₂ : Obligation.valueWith m maps₂ address a = .ok o₂) : o₁.BorrowsGrow o₂ := by
  obtain ⟨-, ds₁, bs₁, -, hbs₁, sums₁⟩ := Obligation.value_sums h₁
  obtain ⟨-, ds₂, bs₂, -, hbs₂, sums₂⟩ := Obligation.value_sums h₂
  have grown := forall₂_of_mapM hbs₁ hbs₂ fun slot used v₁ v₂ =>
    DebtSlot.valued_grown keyed le agrees₁ agrees₂ (accrues slot used)
  refine ⟨?_, ?_, ?_⟩
  · rw [sums₁.borrows, sums₂.borrows]
    refine positionMap_grown ?_
    rw [List.forall₂_map_left_iff, List.forall₂_map_right_iff]
    exact grown.imp fun _ _ more => more.1
  · rw [sums₁.totalBorrow, sums₂.totalBorrow]
    refine runningSum_mono ?_
    rw [List.forall₂_map_left_iff, List.forall₂_map_right_iff]
    exact grown.imp fun _ _ more => more.1.value
  · rw [sums₁.weightedBorrow, sums₂.weightedBorrow]
    refine runningSum_mono ?_
    rw [List.forall₂_map_left_iff, List.forall₂_map_right_iff]
    exact grown.imp fun _ _ more => more.2

end

/-- The account that a load read, valued with rates of the slot. -/
theorem Obligation.valueWith_of_load {m : Market} {s : Snapshot} {address : String} {slot : ℤ}
    {o : Obligation} {a : ObligationAccount} (found : s.obligation? address = some a)
    (h : (load m s address (some slot)).outcome = .ok (some o)) :
    ∃ maps : RateMaps, maps.Agrees m slot ∧ valueWith m maps address a = .ok o := by
  rw [load_outcome, found] at h
  obtain ⟨o', valued, same⟩ := map_eq_ok_iff.mp h
  cases same
  obtain ⟨maps, filled, valued⟩ := bind_eq_ok_iff.mp valued
  exact ⟨maps, (Market.addRates_spec (RateMaps.agrees_empty m slot) filled).1, valued⟩

/-- From a slot to a later one neither what a reserve is owed shrinks nor what an obligation
    that is loaded for both owes. -/
theorem debt_never_shrinks {m : Market} (keyed : m.Keyed) {s : Snapshot} {address : String}
    {a : ObligationAccount} (found : s.obligation? address = some a)
    (accrues : ∀ slot ∈ a.usedBorrows, ∀ r, m.reserveAt? slot.reserve = some r → r.Accrues)
    {s₁ s₂ : ℤ} (le : s₁ ≤ s₂) :
    (∀ slot ∈ a.usedBorrows, ∀ r, m.reserveAt? slot.reserve = some r →
      ∀ bps, r.toPool.DebtGrows s₁ s₂ bps) ∧
    ∀ o₁ o₂, (Obligation.load m s address (some s₁)).outcome = .ok (some o₁) →
      (Obligation.load m s address (some s₂)).outcome = .ok (some o₂) → o₁.BorrowsGrow o₂ := by
  constructor
  · intro slot used r there bps
    exact (accrues slot used r there).debtGrows le bps
  · intro o₁ o₂ h₁ h₂
    obtain ⟨maps₁, agrees₁, valued₁⟩ := Obligation.valueWith_of_load found h₁
    obtain ⟨maps₂, agrees₂, valued₂⟩ := Obligation.valueWith_of_load found h₂
    exact borrowsGrow_of_values keyed le agrees₁ agrees₂ accrues valued₁ valued₂

theorem accrues_sample : Sample.reserve.Accrues where
  opened := Pool.opened_sample
  limbs := by decide
  host := by decide
  borrowFactor := by decide
  price := by decide +kernel
  rate := by
    intro apr rated
    cases (show Sample.reserve.borrowApr =
        .ok ⟨false, 8333337500002083334375000520833593750128, -41⟩ by
      decide +kernel).symm.trans rated
    refine ⟨by decide +kernel, ?_⟩
    have host_le : Sample.reserve.hostRate ≤ 1 := by
      show truncate (((100 : ℤ) : ℚ) / 10000) ≤ 1
      exact (truncate_le (by norm_num)).trans (by norm_num)
    have host_nonneg : 0 ≤ Sample.reserve.hostRate := Pool.hostRate_nonneg (by decide)
    have apr_mem : 0 ≤ (⟨false, 8333337500002083334375000520833593750128, -41⟩ : Decimal).toRat ∧
        (⟨false, 8333337500002083334375000520833593750128, -41⟩ : Decimal).toRat ≤ 1 := by
      decide +kernel
    rw [Interest.cast_slotsPerYear]
    exact (truncate_le (add_nonneg apr_mem.1 host_nonneg)).trans (by linarith [apr_mem.2])

/-- Four slots after the last refresh, and five. -/
theorem debt_never_shrinks_sample :
    Sample.reserve.toPool.DebtGrows 1004 1005 0 ∧
    ∃ o₁ o₂, (Obligation.load Sample.market Sample.snapshot "obligation" (some 1004)).outcome
        = .ok (some o₁) ∧
      (Obligation.load Sample.market Sample.snapshot "obligation" (some 1005)).outcome
        = .ok (some o₂) ∧ o₁.BorrowsGrow o₂ := by
  have found : Sample.snapshot.obligation? "obligation" = some Sample.borrower := by decide
  have accrues : ∀ slot ∈ Sample.borrower.usedBorrows, ∀ r,
      Sample.market.reserveAt? slot.reserve = some r → r.Accrues := by
    intro slot used r there
    have listed := AddressMap.mem_values_of_find? there
    rw [List.mem_singleton.mp listed]
    exact accrues_sample
  obtain ⟨pools, loads⟩ := debt_never_shrinks (m := Sample.market) (by decide) found accrues
    (by decide : (1004 : ℤ) ≤ 1005)
  obtain ⟨o₁, valued₁⟩ := exists_of_isOk (show (Obligation.valueAt Sample.market 1004 "obligation"
    Sample.borrower).isOk by decide +kernel)
  obtain ⟨o₂, valued₂⟩ := exists_of_isOk (show (Obligation.valueAt Sample.market 1005 "obligation"
    Sample.borrower).isOk by decide +kernel)
  have loaded₁ : (Obligation.load Sample.market Sample.snapshot "obligation" (some 1004)).outcome
      = .ok (some o₁) := by
    rw [Obligation.load_outcome, found]
    exact map_eq_ok_iff.mpr ⟨o₁, valued₁, rfl⟩
  have loaded₂ : (Obligation.load Sample.market Sample.snapshot "obligation" (some 1005)).outcome
      = .ok (some o₂) := by
    rw [Obligation.load_outcome, found]
    exact map_eq_ok_iff.mpr ⟨o₂, valued₂, rfl⟩
  exact ⟨pools _ List.mem_cons_self Sample.reserve (by decide) 0, o₁, o₂, loaded₁, loaded₂,
    loads o₁ o₂ loaded₁ loaded₂⟩

end Lending
