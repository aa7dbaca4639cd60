/-
  Lending.Proofs.Obligation.Indexed — what borrowers owe together, beside what a reserve is owed.

  A borrower's debt is brought up to date by the reserve's cumulative rate at the slot, which
  the loader enters in the account's rate map. So debts that were recorded together with the
  reserve's state add up to its debt times the growth of that rate (`loadedDebts_sum`). They
  make up the estimated debt if the reserve charges no host rate or no slot has passed;
  otherwise the estimate is more than all borrowers owe (`debt_against_index`).
-/
import Lending.Obligation.Sample
import Lending.Proofs.Obligation.RateMaps
import Lending.Proofs.Obligation.Slots
import Lending.Proofs.Reserve.BorrowIndex

namespace Lending

open Interest Outcome Truncation

def Market.loadedDebt (m : Market) (slot : ℤ) (a : ObligationAccount) (s : DebtSlot) :
    Outcome Position := do
  let maps ← m.ratesFor slot a
  pure (← s.valued m a.elevationGroup (some maps.borrow)).2

structure RecordedIn (r : Reserve) (c : Decimal) (d : ObligationAccount × DebtSlot) : Prop where
  held : d.2 ∈ d.1.usedBorrows
  reserve : d.2.reserve = r.address
  rate : d.2.cumulativeBorrowRate = .ok c

def DebtSlot.KeepsDigits (s : DebtSlot) (index c : Decimal) : Prop :=
  ∀ recorded, s.borrowed = .ok recorded → ¬ Underflows (recorded.toRat * index.toRat) ∧
    ¬ Underflows (truncate (recorded.toRat * index.toRat) / c.toRat)

theorem Market.loadedDebt_amount {m : Market} {r : Reserve} {c index : Decimal} {slot : ℤ}
    {d : ObligationAccount × DebtSlot} {position : Position}
    (onMarket : m.reserveAt? r.address = some r) (recorded : RecordedIn r c d)
    (indexed : r.cumulativeBorrowRateAt slot = .ok index)
    (loaded : m.loadedDebt slot d.1 d.2 = .ok position) :
    ∃ raw : Decimal, d.2.borrowed = .ok raw ∧
      position.amount.toRat = truncate (truncate (raw.toRat * index.toRat) / c.toRat) := by
  obtain ⟨maps, filled, loaded⟩ := bind_eq_ok_iff.mp loaded
  obtain ⟨v, valued, loaded⟩ := bind_eq_ok_iff.mp loaded
  cases loaded
  obtain ⟨agrees, covers, -⟩ := Market.addRates_spec (RateMaps.agrees_empty m slot) filled
  obtain ⟨rate, found⟩ := covers.borrow _ recorded.held
  have own := agrees.borrow _ _ found
  rw [recorded.reserve] at found own
  rw [borrowRateAt_eq onMarket] at own
  cases indexed.symm.trans own
  unfold DebtSlot.valued at valued
  simp only [bind_eq_ok_iff] at valued
  obtain ⟨raw, hraw, r', hr, recordedRate, hrecorded, rate, hrate, grown, hgrown, amount, hamount,
    value, -, weight, -, valued⟩ := valued
  cases valued
  unfold DebtSlot.reserveIn at hr
  rw [recorded.reserve, onMarket] at hr
  cases hr
  cases recorded.rate.symm.trans hrecorded
  cases found.symm.trans (rateOf_some_eq_ok_iff.mp hrate)
  exact ⟨raw, hraw, by rw [(div_value hamount).2, mul_value hgrown]⟩

/-- A debt is the recorded number of scaled units times the growth of the rate. -/
theorem Market.loadedDebt_within {m : Market} {r : Reserve} {c index : Decimal} {slot : ℤ}
    {d : ObligationAccount × DebtSlot} {position : Position}
    (onMarket : m.reserveAt? r.address = some r) (recorded : RecordedIn r c d)
    (indexed : r.cumulativeBorrowRateAt slot = .ok index) (kept : d.2.KeepsDigits index c)
    (loaded : m.loadedDebt slot d.1 d.2 = .ok position) :
    (0 : ℚ) ≤ d.2.rawBorrowed ∧
      Within 3 position.amount.toRat
        (d.2.rawBorrowed * (index.toRat / (ScaledFraction.scale * c.toRat))) := by
  obtain ⟨raw, hraw, amount⟩ := loadedDebt_amount onMarket recorded indexed loaded
  obtain ⟨product, quotient⟩ := kept raw hraw
  refine ⟨by exact_mod_cast (ScaledFraction.decode_value hraw).1, ?_⟩
  have steps := (((Within.refl _).truncate product).div_right c.toRat).truncate quotient
  have stored := (ScaledFraction.within_decode hraw).mul_right (index.toRat / c.toRat)
  rw [← mul_div_assoc] at stored
  have both := steps.trans stored (by norm_num [ulp])
  rw [amount]
  convert both using 1
  field_simp

/-- The debts of all borrowers, against the numbers of scaled units recorded. -/
theorem loadedDebts_sum {m : Market} {r : Reserve} {c index : Decimal} {slot : ℤ}
    {debts : List (ObligationAccount × DebtSlot)} {positions : List Position}
    (onMarket : m.reserveAt? r.address = some r) (recorded : ∀ d ∈ debts, RecordedIn r c d)
    (indexed : r.cumulativeBorrowRateAt slot = .ok index)
    (kept : ∀ d ∈ debts, d.2.KeepsDigits index c)
    (loaded : debts.mapM (fun d => m.loadedDebt slot d.1 d.2) = .ok positions) :
    (0 : ℚ) ≤ (debts.map (·.2.rawBorrowed)).sum ∧
      Within 3 (positions.map (·.amount.toRat)).sum ((debts.map (·.2.rawBorrowed)).sum
        * (index.toRat / (ScaledFraction.scale * c.toRat))) := by
  have each : List.Forall₂ (fun x v => 0 ≤ v ∧
      Within 3 x (v * (index.toRat / (ScaledFraction.scale * c.toRat))))
      (positions.map (·.amount.toRat)) (debts.map fun d => (d.2.rawBorrowed : ℚ)) := by
    rw [mapM_eq_ok_iff] at loaded
    induction loaded with
    | nil => exact .nil
    | cons first _ ih =>
      refine .cons (Market.loadedDebt_within onMarket (recorded _ List.mem_cons_self) indexed
        (kept _ List.mem_cons_self) first) (ih ?_ ?_)
      · exact fun d listed => recorded d (List.mem_cons_of_mem _ listed)
      · exact fun d listed => kept d (List.mem_cons_of_mem _ listed)
  have total := Within.sum_mul each
  have cast : (debts.map fun d => (d.2.rawBorrowed : ℚ)).sum
      = ((debts.map (·.2.rawBorrowed)).sum : ℤ) := by
    rw [Int.cast_list_sum, List.map_map]
    rfl
  rwa [cast] at total

/-- An index that has not fallen keeps the digits of every debt. -/
theorem DebtSlot.keepsDigits_of_le {index c : Decimal} (low : 10 ^ (-19 : ℤ) ≤ c.toRat)
    (le : c.toRat ≤ index.toRat) (s : DebtSlot) : s.KeepsDigits index c := by
  have c_pos : 0 < c.toRat := lt_of_lt_of_le (by positivity) low
  intro recorded hrecorded
  rcases (ScaledFraction.decode_nonneg hrecorded).eq_or_lt with zero | positive
  · rw [← zero]
    simpa using not_underflows_zero
  · have recorded_low := ScaledFraction.le_of_decode_pos hrecorded positive
    have at_least : (10 : ℚ) ^ (-38 : ℤ) ≤ recorded.toRat * c.toRat := by
      calc (10 : ℚ) ^ (-38 : ℤ) = 10 ^ (-19 : ℤ) * 10 ^ (-19 : ℤ) := by norm_num
        _ ≤ recorded.toRat * c.toRat := mul_le_mul recorded_low low (by positivity) positive.le
    have grown : recorded.toRat * c.toRat ≤ recorded.toRat * index.toRat :=
      mul_le_mul_of_nonneg_left le positive.le
    have kept {v : ℚ} (h : 10 ^ (-38 : ℤ) ≤ v) : ¬ Underflows v := by
      refine not_underflows_of_le (by norm_num : -999999 ≤ (-38 : ℤ)) ?_
      rwa [abs_of_nonneg (le_trans (by positivity) h)]
    refine ⟨kept (at_least.trans grown), kept ?_⟩
    have cut := (within_truncate (kept at_least)).ge (mul_nonneg positive.le c_pos.le)
    rw [le_div_iff₀ c_pos]
    have half : (10 : ℚ) ^ (-38 : ℤ) ≤ (1 - (1 : ℕ) * ulp) * recorded.toRat := by
      norm_num [ulp] at recorded_low ⊢
      linarith
    calc (10 : ℚ) ^ (-38 : ℤ) * c.toRat ≤ (1 - (1 : ℕ) * ulp) * recorded.toRat * c.toRat :=
          mul_le_mul_of_nonneg_right half c_pos.le
      _ ≤ truncate (recorded.toRat * c.toRat) := by linarith
      _ ≤ truncate (recorded.toRat * index.toRat) := truncate_mono grown

/-! ## Against the debt of the reserve -/

/-- The estimated debt of a reserve, beside its index and what its borrowers owe at a slot. -/
structure DebtAgainstIndex (m : Market) (r : Reserve) (debt c : Decimal) (slot bps : ℤ) :
    Prop where
  estimates : (r.debtAndSupplyAt slot bps).OverflowOnly
  indexes : (r.cumulativeBorrowRateAt slot).OverflowOnly
  /-- Without a host rate, or before a slot has passed, they grow by one factor. -/
  alike : r.config.hostFixedInterestRateBps = 0 ∨ r.slotsSince slot = 0 →
    r.KeepsDigits debt slot → r.KeepsDigits c slot →
    ∀ e index, r.debtAndSupplyAt slot bps = .ok e → r.cumulativeBorrowRateAt slot = .ok index →
      |e.debt.toRat * c.toRat - debt.toRat * index.toRat|
        ≤ 1 / 10 ^ 37 * |debt.toRat * index.toRat| ∧
      ∀ (debts : List (ObligationAccount × DebtSlot)) (positions : List Position),
        (∀ d ∈ debts, RecordedIn r c d ∧ d.2.KeepsDigits index c) →
        (debts.map (·.2.rawBorrowed)).sum = r.account.liquidity.rawBorrowed →
        debts.mapM (fun d => m.loadedDebt slot d.1 d.2) = .ok positions →
        |(positions.map (·.amount.toRat)).sum - e.debt.toRat| ≤ 1 / 10 ^ 37 * |e.debt.toRat|
  /-- Otherwise the index falls behind, and the interest of the host rate is missing from what
      the borrowers owe. -/
  behind : 0 < r.config.hostFixedInterestRateBps → 0 < r.slotsSince slot →
    ∀ apr, r.borrowApr = .ok apr → 0 ≤ apr.toRat → apr.toRat ≤ 10 ^ 30 →
    ∀ e index, r.debtAndSupplyAt slot bps = .ok e → r.cumulativeBorrowRateAt slot = .ok index →
      debt.toRat * index.toRat * (1 + 1 / 10 ^ 35) ≤ e.debt.toRat * c.toRat ∧
      ∀ (debts : List (ObligationAccount × DebtSlot)) (positions : List Position),
        (∀ d ∈ debts, RecordedIn r c d) →
        (debts.map (·.2.rawBorrowed)).sum = r.account.liquidity.rawBorrowed →
        debts.mapM (fun d => m.loadedDebt slot d.1 d.2) = .ok positions →
        (positions.map (·.amount.toRat)).sum * (1 + 1 / 10 ^ 35) ≤ e.debt.toRat

section
variable {m : Market} {r : Reserve} (f : r.Figures) {c index : Decimal} {slot bps : ℤ}
  {e : DebtAndSupply} {debts : List (ObligationAccount × DebtSlot)} {positions : List Position}

theorem borrowers_owe_all (onMarket : m.reserveAt? r.address = some r)
    (rate : r.cumulativeBorrowRate = .ok c) (c_pos : 0 < c.toRat)
    (none : r.config.hostFixedInterestRateBps = 0 ∨ r.slotsSince slot = 0)
    (debt_kept : r.KeepsDigits f.debt slot) (c_kept : r.KeepsDigits c slot)
    (estimate : r.debtAndSupplyAt slot bps = .ok e)
    (indexed : r.cumulativeBorrowRateAt slot = .ok index)
    (recorded : ∀ d ∈ debts, RecordedIn r c d ∧ d.2.KeepsDigits index c)
    (total : (debts.map (·.2.rawBorrowed)).sum = r.account.liquidity.rawBorrowed)
    (loaded : debts.mapM (fun d => m.loadedDebt slot d.1 d.2) = .ok positions) :
    |(positions.map (·.amount.toRat)).sum - e.debt.toRat| ≤ 1 / 10 ^ 38 * |e.debt.toRat| := by
  obtain ⟨-, owed⟩ := loadedDebts_sum onMarket (fun d listed => (recorded d listed).1) indexed
    (fun d listed => (recorded d listed).2) loaded
  have index_near := (within_truncate (c_kept.not_underflows f indexed)).mul_right
    (r.account.liquidity.rawBorrowed / (ScaledFraction.scale * c.toRat))
  rw [← Pool.index_value f rate indexed] at index_near
  have debt_near := (within_truncate (debt_kept.not_underflows f indexed)).trans
    ((ScaledFraction.within_decode f.borrowed_eq).mul_right
      (growth f.borrowApr.toRat (r.slotsSince slot))) (by norm_num [ulp])
  rw [← Pool.debt_value_of_no_host f estimate none] at debt_near
  -- both are near the recorded units times the growth
  refine Within.abs_sub_le_abs (k := 4) (l := 2) ?_ debt_near (by norm_num) (by norm_num)
  rw [total] at owed
  have both := owed.trans (w := r.account.liquidity.rawBorrowed / (ScaledFraction.scale * c.toRat)
    * (c.toRat * growth f.borrowApr.toRat (r.slotsSince slot))) (l := 1) ?_ (by norm_num [ulp])
  · convert both using 1
    field_simp
  · convert index_near using 1 <;> ring

theorem borrowers_owe_less (onMarket : m.reserveAt? r.address = some r)
    (rate : r.cumulativeBorrowRate = .ok c) (c_pos : 0 < c.toRat) (debt_pos : 0 < f.debt.toRat)
    (host : 0 < r.config.hostFixedInterestRateBps) (later : 0 < r.slotsSince slot)
    (apr_nonneg : 0 ≤ f.borrowApr.toRat) (apr_le : f.borrowApr.toRat ≤ 10 ^ 30)
    (estimate : r.debtAndSupplyAt slot bps = .ok e)
    (indexed : r.cumulativeBorrowRateAt slot = .ok index)
    (recorded : ∀ d ∈ debts, RecordedIn r c d)
    (total : (debts.map (·.2.rawBorrowed)).sum = r.account.liquidity.rawBorrowed)
    (loaded : debts.mapM (fun d => m.loadedDebt slot d.1 d.2) = .ok positions) :
    (positions.map (·.amount.toRat)).sum * (1 + 1 / 10 ^ 35) ≤ e.debt.toRat := by
  have c_low := ScaledFraction.le_of_decode_pos rate c_pos
  have index_ge : c.toRat ≤ index.toRat := by
    rw [Pool.index_value f rate indexed]
    exact (ScaledFraction.representable_decode rate).le_truncate
      (le_mul_of_one_le_right c_pos.le (one_le_growth apr_nonneg later.le))
  obtain ⟨units_nonneg, owed⟩ := loadedDebts_sum onMarket recorded indexed
    (fun d _ => d.2.keepsDigits_of_le c_low index_ge) loaded
  have behind :=
    Pool.index_behind_debt f estimate rate indexed debt_pos host later apr_nonneg apr_le
  rw [total] at owed units_nonneg
  have index_nonneg : 0 ≤ index.toRat := c_pos.le.trans index_ge
  have scale_pos := ScaledFraction.scale_pos
  have stored := (ScaledFraction.within_decode f.borrowed_eq).ge
    (div_nonneg units_nonneg scale_pos.le)
  have owed_le := owed.le (by positivity)
  refine le_of_mul_le_mul_right ?_ c_pos
  calc (positions.map (·.amount.toRat)).sum * (1 + 1 / 10 ^ 35) * c.toRat
      ≤ r.account.liquidity.rawBorrowed * (index.toRat / (ScaledFraction.scale * c.toRat))
        * (1 + 1 / 10 ^ 35) * c.toRat := by gcongr
    _ = r.account.liquidity.rawBorrowed / ScaledFraction.scale * index.toRat
        * (1 + 1 / 10 ^ 35) := by field_simp
    _ ≤ r.account.liquidity.rawBorrowed / ScaledFraction.scale * index.toRat
        * ((1 - (1 : ℕ) * ulp) * (1 + 4 / 10 ^ 35)) := by
      refine mul_le_mul_of_nonneg_left (by norm_num [ulp]) (by positivity)
    _ = (1 - (1 : ℕ) * ulp) * (r.account.liquidity.rawBorrowed / ScaledFraction.scale)
        * index.toRat * (1 + 4 / 10 ^ 35) := by ring
    _ ≤ f.debt.toRat * index.toRat * (1 + 4 / 10 ^ 35) := by gcongr
    _ ≤ e.debt.toRat * c.toRat := behind

end

theorem debt_against_index {m : Market} {p : Pool} {r : Reserve} {debt c : Decimal}
    (opened : p.openReserve = .ok r) (onMarket : m.reserveAt? r.address = some r)
    (borrowed : r.borrowed = .ok debt) (debt_pos : 0 < debt.toRat)
    (rate : r.cumulativeBorrowRate = .ok c) (c_pos : 0 < c.toRat) (slot bps : ℤ) :
    DebtAgainstIndex m r debt c slot bps := by
  have same := Pool.toPool_of_openReserve opened
  obtain ⟨f⟩ := Pool.figures_of_openReserve opened
  rw [← same] at f
  cases f.borrowed_eq.symm.trans borrowed
  refine ⟨Pool.debtAndSupplyAt_overflowOnly f slot bps,
    Pool.cumulativeBorrowRateAt_overflowOnly f (.of_eq rate) slot, ?_, ?_⟩
  · intro none debt_kept c_kept e index estimate indexed
    have debt_near := (within_truncate (debt_kept.not_underflows f indexed)).mul_right c.toRat
    have index_near := (within_truncate (c_kept.not_underflows f indexed)).mul_right f.debt.toRat
    rw [← Pool.debt_value_of_no_host f estimate none] at debt_near
    rw [← Pool.index_value f rate indexed, mul_right_comm, mul_comm c.toRat,
      mul_comm index.toRat] at index_near
    rw [mul_right_comm] at debt_near
    refine ⟨(debt_near.abs_sub_le_abs index_near (by norm_num) (by norm_num)).trans ?_, ?_⟩
    · gcongr <;> norm_num
    · intro debts positions recorded total loaded
      refine (borrowers_owe_all f onMarket rate c_pos none debt_kept c_kept estimate indexed
        recorded total loaded).trans ?_
      gcongr <;> norm_num
  · intro host later apr hapr apr_nonneg apr_le e index estimate indexed
    cases f.borrowApr_eq.symm.trans hapr
    have behind :=
      Pool.index_behind_debt f estimate rate indexed debt_pos host later apr_nonneg apr_le
    refine ⟨le_trans ?_ behind, ?_⟩
    · have index_nonneg : 0 ≤ index.toRat := by
        rw [Pool.index_value f rate indexed]
        exact truncate_nonneg
          (mul_nonneg c_pos.le (by linarith [one_le_growth apr_nonneg later.le]))
      gcongr
      norm_num
    · intro debts positions recorded total loaded
      exact borrowers_owe_less f onMarket rate c_pos debt_pos host later apr_nonneg apr_le estimate
        indexed recorded total loaded

/-- At a host rate of a percent, a thousand slots are enough. -/
theorem debt_against_index_sample :
    DebtAgainstIndex Sample.market Sample.reserve 3000000000 ⟨false, 11, -1⟩ 2000 1000 ∧
    ∃ e index, Sample.reserve.debtAndSupplyAt 2000 1000 = .ok e ∧
      Sample.reserve.cumulativeBorrowRateAt 2000 = .ok index ∧
      ¬ |e.debt.toRat * (⟨false, 11, -1⟩ : Decimal).toRat
          - (3000000000 : Decimal).toRat * index.toRat|
        ≤ 1 / 10 ^ 37 * |(3000000000 : Decimal).toRat * index.toRat| :=
  ⟨debt_against_index Pool.opened_sample (by decide) (by decide +kernel) (by decide +kernel)
      (by decide +kernel) (by decide +kernel) 2000 1000,
    ⟨⟨false, 3000004439376140978873225603136339600018, -30⟩,
      ⟨false, 4000001567356301198105056929667912617391, -30⟩⟩,
    ⟨false, 1100001453367151770159853191122975053964, -39⟩,
    by decide +kernel, by decide +kernel, by decide +kernel⟩

end Lending
