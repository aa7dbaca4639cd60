/-
  Lending.Proofs.Obligation.Slots — one slot of an account at a time.

  Adding a slot is valuing it, whatever was added before, and then adding its value to the
  totals (`addSlot_eq`). So the figures of an account are sums over its slots, and a change of
  one slot changes one value. What a slot is worth is its holding scaled step by step
  (`CollateralSlot.worth`, `DebtSlot.worth`).
-/
import Lending.Obligation.Load
import Lending.Proofs.Decimal.RunningSum
import Lending.Proofs.Outcome
import Lending.Proofs.ScaledFraction

namespace Lending

open Outcome Truncation

theorem rateOf_some_eq_ok_iff {map : RateMap} {r : Reserve} {own : Outcome Decimal}
    {rate : Decimal} : rateOf (some map) r own = .ok rate ↔ map.find? r.address = some rate :=
  Outcome.ofOption_eq_ok_iff

variable (m : Market) (group : Int) (rates : Option RateMap)

def CollateralSlot.valued (slot : CollateralSlot) : Outcome (CollateralTerms × Position) := do
  let r ← slot.reserveIn m
  let terms ← m.collateralTerms group r
  let rate ← rateOf rates r r.exchangeRate
  let amount ← Decimal.ofInt slot.depositedAmount / rate
  let value ← r.valueOf amount
  pure (terms, ⟨r.address, r.mint, amount, value⟩)

def DebtSlot.valued (slot : DebtSlot) : Outcome (Decimal × Position) := do
  let recorded ← slot.borrowed
  let r ← slot.reserveIn m
  let recordedRate ← slot.cumulativeBorrowRate
  let rate ← rateOf rates r r.cumulativeBorrowRate
  let amount ← (← recorded * rate) / recordedRate
  let value ← r.valueOf amount
  let weight ← r.debtWeight group
  pure (weight, ⟨r.address, r.mint, amount, value⟩)

theorem DepositTotals.addSlot_eq (t : DepositTotals) (slot : CollateralSlot) :
    DepositTotals.addSlot m group rates t slot =
      slot.valued m group rates >>= fun v => t.addValue v.1 v.2 := by
  unfold DepositTotals.addSlot CollateralSlot.valued
  simp only [bind_assoc, pure_bind]

theorem BorrowStats.addSlot_eq (t : BorrowStats) (slot : DebtSlot) :
    BorrowStats.addSlot m group rates t slot =
      slot.valued m group rates >>= fun v => t.addValue v.1 v.2 := by
  unfold BorrowStats.addSlot DebtSlot.valued
  simp only [bind_assoc, pure_bind]

/-! ## What a slot is worth -/

def Pool.dollarSteps (p : Pool) (factor : Decimal) : List ℚ :=
  [p.oraclePrice.toRat, factor.toRat⁻¹]

theorem Pool.valueOf_steps {p : Pool} {amount value : Decimal} (h : p.valueOf amount = .ok value) :
    ∃ factor, p.mintFactor = .ok factor ∧ factor.toRat ≠ 0 ∧
      value.toRat = scaleBy (p.dollarSteps factor) amount.toRat := by
  obtain ⟨product, hproduct, h⟩ := bind_eq_ok_iff.mp h
  obtain ⟨factor, hfactor, h⟩ := bind_eq_ok_iff.mp h
  obtain ⟨nonzero, quotient⟩ := div_value h
  refine ⟨factor, hfactor, nonzero, ?_⟩
  rw [quotient, mul_value hproduct, div_eq_mul_inv]
  rfl

theorem Pool.valueOf_overflowOnly {p : Pool} {factor : Decimal} (h : p.mintFactor = .ok factor)
    (nonzero : factor.toRat ≠ 0) (amount : Decimal) : (p.valueOf amount).OverflowOnly := by
  refine (mul_overflowOnly _ _).bind fun product _ => .bind (.of_eq h) fun own same => ?_
  cases h.symm.trans same
  exact div_overflowOnly _ nonzero

theorem Pool.mintFactor_nonneg {p : Pool} {factor : Decimal} (h : p.mintFactor = .ok factor) :
    0 ≤ factor.toRat := by
  unfold mintFactor Decimal.powerOfTen at h
  rw [round_value one_ne_zero h]
  exact truncate_nonneg (by simpa using zpow_nonneg (by norm_num) _)

theorem Pool.dollarSteps_nonneg {p : Pool} {factor : Decimal} (price : 0 ≤ p.oraclePrice.toRat)
    (factor_eq : p.mintFactor = .ok factor) : ∀ step ∈ p.dollarSteps factor, 0 ≤ step := by
  intro step listed
  simp only [dollarSteps, List.mem_cons, List.not_mem_nil, or_false] at listed
  rcases listed with rfl | rfl
  · exact price
  · exact inv_nonneg.mpr (mintFactor_nonneg factor_eq)

variable {m group rates}

def collateralSteps (rate : Decimal) : List ℚ := [rate.toRat⁻¹]

structure CollateralSlot.Worth (m : Market) (group : Int) (rates : Option RateMap)
    (slot : CollateralSlot) (v : CollateralTerms × Position) (r : Reserve)
    (rate factor : Decimal) : Prop where
  reserveAt : m.reserveAt? slot.reserve = some r
  terms_eq : m.collateralTerms group r = .ok v.1
  rate_eq : rateOf rates r r.exchangeRate = .ok rate
  factor_eq : r.mintFactor = .ok factor
  reserve : v.2.reserve = r.address
  mint : v.2.mint = r.mint
  amount : v.2.amount.toRat = scaleBy (collateralSteps rate) slot.depositedAmount
  value : v.2.value.toRat =
    scaleBy (collateralSteps rate ++ r.dollarSteps factor) slot.depositedAmount

theorem CollateralSlot.worth {slot : CollateralSlot} {v : CollateralTerms × Position}
    (h : slot.valued m group rates = .ok v) :
    ∃ r rate factor, slot.Worth m group rates v r rate factor := by
  unfold valued at h
  simp only [bind_eq_ok_iff] at h
  obtain ⟨r, hr, terms, hterms, rate, hrate, amount, hamount, value, hvalue, h⟩ := h
  cases h
  obtain ⟨factor, hfactor, -, dollars⟩ := Pool.valueOf_steps hvalue
  have scaled : amount.toRat = scaleBy (collateralSteps rate) slot.depositedAmount := by
    rw [(div_value hamount).2, Decimal.toRat_ofInt, div_eq_mul_inv]
    rfl
  exact ⟨r, rate, factor, ofOption_eq_ok_iff.mp hr, hterms, hrate, hfactor, rfl, rfl, scaled,
    by rw [dollars, scaled, scaleBy_append]⟩

theorem CollateralSlot.worth_in {slot : CollateralSlot} {v : CollateralTerms × Position}
    {r : Reserve} {rate factor : Decimal} (h : slot.valued m group rates = .ok v)
    (found : m.reserveAt? slot.reserve = some r)
    (rate_eq : rateOf rates r r.exchangeRate = .ok rate) (factor_eq : r.mintFactor = .ok factor) :
    slot.Worth m group rates v r rate factor := by
  obtain ⟨own, ownRate, ownFactor, worth⟩ := worth h
  cases worth.reserveAt.symm.trans found
  cases worth.rate_eq.symm.trans rate_eq
  cases worth.factor_eq.symm.trans factor_eq
  exact worth

theorem CollateralSlot.representable_amount {slot : CollateralSlot} {v : CollateralTerms × Position}
    (h : slot.valued m group rates = .ok v) : Representable v.2.amount.toRat := by
  obtain ⟨r, rate, factor, worth⟩ := worth h
  rw [worth.amount]
  exact representable_scaleBy (by simp [collateralSteps]) _

theorem CollateralSlot.representable_value {slot : CollateralSlot} {v : CollateralTerms × Position}
    (h : slot.valued m group rates = .ok v) : Representable v.2.value.toRat := by
  obtain ⟨r, rate, factor, worth⟩ := worth h
  rw [worth.value]
  exact representable_scaleBy (by simp [collateralSteps]) _

/-- Beside its terms and its rate, valuing a deposit needs a rate and a unit that are not zero. -/
theorem CollateralSlot.valued_faultsIn {P : Fault → Prop} {slot : CollateralSlot} {r : Reserve}
    {factor : Decimal} (overflow : P .overflow) (found : m.reserveAt? slot.reserve = some r)
    (terms : (m.collateralTerms group r).FaultsIn P)
    (rated : (rateOf rates r r.exchangeRate).FaultsIn P)
    (rate_ne : ∀ rate, rateOf rates r r.exchangeRate = .ok rate → rate.toRat ≠ 0)
    (factor_eq : r.mintFactor = .ok factor) (factor_ne : factor.toRat ≠ 0) :
    (slot.valued m group rates).FaultsIn P := by
  have on : slot.reserveIn m = .ok r := ofOption_eq_ok_iff.mpr found
  refine .bind (.of_eq on) fun own same => ?_
  cases on.symm.trans same
  refine .bind terms fun _ _ => .bind rated fun rate given => ?_
  refine .bind ((div_overflowOnly _ (rate_ne rate given)).faultsIn overflow) fun amount _ => ?_
  exact .bind ((Pool.valueOf_overflowOnly factor_eq factor_ne amount).faultsIn overflow)
    fun _ _ => .pure _

theorem CollateralSlot.valued_overflowOnly {slot : CollateralSlot} {r : Reserve}
    {terms : CollateralTerms} {rate factor : Decimal}
    (found : m.reserveAt? slot.reserve = some r) (terms_eq : m.collateralTerms group r = .ok terms)
    (rate_eq : rateOf rates r r.exchangeRate = .ok rate) (rate_ne : rate.toRat ≠ 0)
    (factor_eq : r.mintFactor = .ok factor) (factor_ne : factor.toRat ≠ 0) :
    (slot.valued m group rates).OverflowOnly := by
  refine valued_faultsIn rfl found (.of_eq terms_eq) (.of_eq rate_eq) (fun given same => ?_)
    factor_eq factor_ne
  cases rate_eq.symm.trans same
  exact rate_ne

def debtSteps (rate recordedRate : Decimal) : List ℚ :=
  [ScaledFraction.scale⁻¹, rate.toRat, recordedRate.toRat⁻¹]

structure DebtSlot.Worth (m : Market) (group : Int) (rates : Option RateMap)
    (slot : DebtSlot) (v : Decimal × Position) (r : Reserve)
    (rate recordedRate factor : Decimal) : Prop where
  reserveAt : m.reserveAt? slot.reserve = some r
  weight_eq : r.debtWeight group = .ok v.1
  rate_eq : rateOf rates r r.cumulativeBorrowRate = .ok rate
  recordedRate_eq : slot.cumulativeBorrowRate = .ok recordedRate
  factor_eq : r.mintFactor = .ok factor
  recorded : 0 ≤ slot.rawBorrowed
  reserve : v.2.reserve = r.address
  mint : v.2.mint = r.mint
  amount : v.2.amount.toRat = scaleBy (debtSteps rate recordedRate) slot.rawBorrowed
  value : v.2.value.toRat =
    scaleBy (debtSteps rate recordedRate ++ r.dollarSteps factor) slot.rawBorrowed

theorem DebtSlot.worth {slot : DebtSlot} {v : Decimal × Position}
    (h : slot.valued m group rates = .ok v) :
    ∃ r rate recordedRate factor, slot.Worth m group rates v r rate recordedRate factor := by
  unfold valued at h
  simp only [bind_eq_ok_iff] at h
  obtain ⟨recorded, hrecorded, r, hr, recordedRate, hrecordedRate, rate, hrate, grown, hgrown,
    amount, hamount, value, hvalue, weight, hweight, h⟩ := h
  cases h
  obtain ⟨factor, hfactor, -, dollars⟩ := Pool.valueOf_steps hvalue
  obtain ⟨nonneg, units⟩ := ScaledFraction.decode_value hrecorded
  have scaled : amount.toRat = scaleBy (debtSteps rate recordedRate) slot.rawBorrowed := by
    rw [(div_value hamount).2, mul_value hgrown, units, div_eq_mul_inv, div_eq_mul_inv]
    rfl
  exact ⟨r, rate, recordedRate, factor, ofOption_eq_ok_iff.mp hr, hweight, hrate, hrecordedRate,
    hfactor, nonneg, rfl, rfl, scaled, by rw [dollars, scaled, scaleBy_append]⟩

theorem DebtSlot.representable_amount {slot : DebtSlot} {v : Decimal × Position}
    (h : slot.valued m group rates = .ok v) : Representable v.2.amount.toRat := by
  obtain ⟨r, rate, recordedRate, factor, worth⟩ := worth h
  rw [worth.amount]
  exact representable_scaleBy (by simp [debtSteps]) _

theorem DebtSlot.representable_value {slot : DebtSlot} {v : Decimal × Position}
    (h : slot.valued m group rates = .ok v) : Representable v.2.value.toRat := by
  obtain ⟨r, rate, recordedRate, factor, worth⟩ := worth h
  rw [worth.value]
  exact representable_scaleBy (by simp [debtSteps]) _

theorem DebtSlot.worth_in {slot : DebtSlot} {v : Decimal × Position} {r : Reserve}
    {rate recordedRate factor : Decimal} (h : slot.valued m group rates = .ok v)
    (found : m.reserveAt? slot.reserve = some r)
    (rate_eq : rateOf rates r r.cumulativeBorrowRate = .ok rate)
    (recordedRate_eq : slot.cumulativeBorrowRate = .ok recordedRate)
    (factor_eq : r.mintFactor = .ok factor) :
    slot.Worth m group rates v r rate recordedRate factor := by
  obtain ⟨own, ownRate, ownRecorded, ownFactor, worth⟩ := worth h
  cases worth.reserveAt.symm.trans found
  cases worth.rate_eq.symm.trans rate_eq
  cases worth.recordedRate_eq.symm.trans recordedRate_eq
  cases worth.factor_eq.symm.trans factor_eq
  exact worth

/-- A debt that was brought up to date was divided by its recorded rate. -/
theorem DebtSlot.recordedRate_ne_zero {slot : DebtSlot} {v : Decimal × Position}
    {recordedRate : Decimal} (h : slot.valued m group rates = .ok v)
    (recordedRate_eq : slot.cumulativeBorrowRate = .ok recordedRate) : recordedRate.toRat ≠ 0 := by
  unfold valued at h
  simp only [bind_eq_ok_iff] at h
  obtain ⟨_, -, _, -, own, given, _, -, _, -, _, divided, -⟩ := h
  cases recordedRate_eq.symm.trans given
  exact (div_value divided).1

/-- Beside its rates, valuing a debt needs that it can be divided by the recorded rate, and a
    unit that is not zero. -/
theorem DebtSlot.valued_faultsIn {P : Fault → Prop} {slot : DebtSlot} {r : Reserve}
    {factor : Decimal} (overflow : P .overflow) (recorded : 0 ≤ slot.rawBorrowed)
    (found : m.reserveAt? slot.reserve = some r) (weight : (r.debtWeight group).FaultsIn P)
    (rated : (rateOf rates r r.cumulativeBorrowRate).FaultsIn P)
    (recordedRate : slot.cumulativeBorrowRate.FaultsIn P)
    (divides : ∀ c, slot.cumulativeBorrowRate = .ok c →
      ∀ x : Decimal, (x / c : Outcome Decimal).FaultsIn P)
    (factor_eq : r.mintFactor = .ok factor) (factor_ne : factor.toRat ≠ 0) :
    (slot.valued m group rates).FaultsIn P := by
  have on : slot.reserveIn m = .ok r := ofOption_eq_ok_iff.mpr found
  refine .bind ((ScaledFraction.decode_overflowOnly recorded).faultsIn overflow) fun _ _ =>
    .bind (.of_eq on) fun own same => ?_
  cases on.symm.trans same
  refine .bind recordedRate fun c given => .bind rated fun _ _ =>
    .bind ((mul_overflowOnly _ _).faultsIn overflow) fun grown _ =>
    .bind (divides c given grown) fun amount _ => ?_
  exact .bind ((Pool.valueOf_overflowOnly factor_eq factor_ne amount).faultsIn overflow)
    fun _ _ => .bind weight fun _ _ => .pure _

theorem DebtSlot.valued_overflowOnly {slot : DebtSlot} {r : Reserve}
    {weight rate recordedRate factor : Decimal} (recorded : 0 ≤ slot.rawBorrowed)
    (found : m.reserveAt? slot.reserve = some r) (weight_eq : r.debtWeight group = .ok weight)
    (rate_eq : rateOf rates r r.cumulativeBorrowRate = .ok rate)
    (recordedRate_eq : slot.cumulativeBorrowRate = .ok recordedRate)
    (recordedRate_ne : recordedRate.toRat ≠ 0)
    (factor_eq : r.mintFactor = .ok factor) (factor_ne : factor.toRat ≠ 0) :
    (slot.valued m group rates).OverflowOnly := by
  refine valued_faultsIn rfl recorded found (.of_eq weight_eq) (.of_eq rate_eq)
    (.of_eq recordedRate_eq) (fun c same x => ?_) factor_eq factor_ne
  cases recordedRate_eq.symm.trans same
  exact div_overflowOnly x recordedRate_ne

end Lending
