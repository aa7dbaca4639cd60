/-
  Lending.Proofs.Obligation.Prediction — a scenario beside the obligation valued anew.

  A scenario adds the value of a change to totals and to a position; valuing the changed
  account sums over all slots again. Both see the change through the same factors: rate,
  price, unit of the token, and the share that counts. So the figures of the slot that changes
  are its holding scaled, and those of the scenario are near those of the account valued anew
  (`deposit_predicted`, `borrow_predicted`, both sides: `scenario_predicts`).
-/
import Lending.Proofs.Obligation.Revaluable
import Lending.Proofs.Obligation.SlotChange

namespace Lending

open Outcome Truncation

/-! ## Deposits -/

structure DepositChange (m : Market) (rates : Option RateMap) (r : Reserve) (rate : Decimal)
    (a a' : ObligationAccount) (held c : ℤ) : Prop where
  onMarket : m.reserveAt? r.address = some r
  rate_eq : rateOf rates r r.exchangeRate = .ok rate
  group : a'.elevationGroup = a.elevationGroup
  borrows : a'.usedBorrows = a.usedBorrows
  slots : ∃ slot slot', SlotChange CollateralSlot.reserve r.address slot slot' a.usedDeposits
      a'.usedDeposits ∧
    held = slot.elim 0 (·.depositedAmount) ∧ slot'.depositedAmount = held + c
  left : 0 ≤ held + c
  /-- No step of valuing what was held, the change or what is left loses digits. -/
  kept : ∀ factor terms, r.mintFactor = .ok factor →
    m.collateralTerms a.elevationGroup r = .ok terms → ∀ x ∈ [(held : ℚ), c, held + c],
      KeepsDigits (collateralSteps rate ++ r.dollarSteps factor ++ [terms.loanToValue.toRat]) x ∧
      KeepsDigits
        (collateralSteps rate ++ r.dollarSteps factor ++ [terms.liquidationThreshold.toRat]) x

theorem withdrawal_sample : DepositChange Sample.market none Sample.reserve Sample.rate
    Sample.borrower Sample.withdrawn 3900000 (-1000001) where
  onMarket := by decide
  rate_eq := by decide +kernel
  group := rfl
  borrows := rfl
  slots := ⟨some { reserve := "reserve", depositedAmount := 3900000 },
    { reserve := "reserve", depositedAmount := 2899999 }, .replaced [] [] rfl rfl, rfl, rfl⟩
  left := by decide
  kept := by
    intro factor terms factor_eq terms_eq x listed
    cases (show Sample.reserve.mintFactor = .ok ⟨false, 1, 6⟩ by
      decide +kernel).symm.trans factor_eq
    cases (show Sample.market.collateralTerms 0 Sample.reserve =
      .ok ⟨⟨false, 8, -1⟩, ⟨false, 85, -2⟩⟩ by decide +kernel).symm.trans terms_eq
    have low : (10 : ℚ) ^ (0 : ℤ) ≤ |x| := by
      simp only [List.mem_cons, List.not_mem_nil, or_false] at listed
      rcases listed with rfl | rfl | rfl <;> norm_num
    constructor <;> refine keepsDigits_of_le low (d := 19) ?_ (by norm_num) (by decide)
    · decide +kernel
    · decide +kernel

structure DepositFacts (r : Reserve) (terms : CollateralTerms) (rate factor : Decimal)
    (v : CollateralTerms × Position) (x : ℚ) : Prop where
  terms : v.1 = terms
  amount : v.2.amount.toRat = scaleBy (collateralSteps rate) x
  value : v.2.value.toRat = scaleBy (collateralSteps rate ++ r.dollarSteps factor) x

structure DepositsNear (n : ℕ) (r : Reserve) (terms : CollateralTerms) (amount value : ℚ)
    (o o' : Obligation) (s : Scenario) : Prop where
  totalDeposit : Near n s.stats.totalDeposit.toRat o'.stats.totalDeposit.toRat
    o.stats.totalDeposit.toRat value
  borrowLimit : Near n s.stats.borrowLimit.toRat o'.stats.borrowLimit.toRat
    o.stats.borrowLimit.toRat (truncate (value * terms.loanToValue.toRat))
  liquidationLimit : Near n s.stats.liquidationLimit.toRat o'.stats.liquidationLimit.toRat
    o.stats.liquidationLimit.toRat (truncate (value * terms.liquidationThreshold.toRat))
  position : ∃ p p', s.deposits.find? r.address = some p ∧ o'.deposits.find? r.address = some p' ∧
    PositionNear n (positionIn o.deposits r) p p' amount value

section
variable {m : Market} {cr br : Option RateMap} {o : Obligation} (fit : Revaluable m cr br o)
  {r : Reserve} {rate : Decimal} {a' : ObligationAccount} {held c : ℤ}
  (change : DepositChange m cr r rate o.account a' held c)
include fit change

theorem DepositChange.scaled {factor : Decimal} {share : ℚ} (factor_eq : r.mintFactor = .ok factor)
    (share_nonneg : 0 ≤ share) (kept : ∀ x ∈ [(held : ℚ), c, held + c],
      KeepsDigits (collateralSteps rate ++ r.dollarSteps factor ++ [share]) x) :
    Change (collateralSteps rate ++ r.dollarSteps factor ++ [share]) held c := by
  have listed := AddressMap.mem_values_of_find? change.onMarket
  have rate_pos := fit.exchangeRates r listed rate change.rate_eq
  have dollars := fit.unsigned.dollarSteps_nonneg listed factor_eq
  have steps := List.forall_mem_append.mpr
    ⟨List.forall_mem_append.mpr ⟨collateralSteps_nonneg rate_pos.le, dollars⟩,
      List.forall_mem_singleton.mpr share_nonneg⟩
  refine ⟨by simp [collateralSteps], by simp [collateralSteps, Pool.dollarSteps], steps, ?_,
    by exact_mod_cast change.left, kept⟩
  obtain ⟨slot, slot', slots, was, -⟩ := change.slots
  rw [was]
  cases slot with
  | none => simp
  | some s => exact_mod_cast fit.deposited s (slots.mem_old s rfl)

/-- The changed account can be valued, up to an overflow. -/
theorem DepositChange.value_overflowOnly {factor : Decimal} {terms : CollateralTerms}
    (factor_eq : r.mintFactor = .ok factor) (factor_ne : factor.toRat ≠ 0)
    (terms_eq : m.collateralTerms o.account.elevationGroup r = .ok terms) :
    (Obligation.value m o.address a' cr br).OverflowOnly := by
  obtain ⟨slot, slot', slots, -, -⟩ := change.slots
  have rate_pos := fit.exchangeRates r (AddressMap.mem_values_of_find? change.onMarket) rate
    change.rate_eq
  refine Obligation.value_overflowOnly ?_ ?_
  · intro s used
    rw [change.group]
    rcases slots.mem_new used with kept | rfl
    · exact fit.deposits_known s kept
    · have found : m.reserveAt? s.reserve = some r := by
        rw [slots.reserve_slot']
        exact change.onMarket
      exact ⟨s.valued_overflowOnly found terms_eq change.rate_eq rate_pos.ne' factor_eq factor_ne,
        r, found⟩
  · intro s used
    rw [change.borrows] at used
    rw [change.group]
    exact (fit.borrows_known s used).1

omit fit in
theorem DepositChange.place {factor : Decimal} {terms : CollateralTerms}
    (factor_eq : r.mintFactor = .ok factor)
    (terms_eq : m.collateralTerms o.account.elevationGroup r = .ok terms) :
    ∃ slot slot', SlotChange CollateralSlot.reserve r.address slot slot' o.account.usedDeposits
        a'.usedDeposits ∧
      Place (CollateralSlot.valued m o.account.elevationGroup cr)
        (DepositFacts r terms rate factor) slot slot' held c := by
  obtain ⟨slot, slot', slots, was, now⟩ := change.slots
  refine ⟨slot, slot', slots, ?_⟩
  have facts {s v} (valued : CollateralSlot.valued m o.account.elevationGroup cr s = .ok v)
      (address : s.reserve = r.address) : DepositFacts r terms rate factor v s.depositedAmount := by
    have worth := s.worth_in valued (address ▸ change.onMarket) change.rate_eq factor_eq
    exact ⟨Except.ok.inj (worth.terms_eq.symm.trans terms_eq), worth.amount, worth.value⟩
  constructor
  · rintro rfl
    exact_mod_cast was
  · rintro s rfl v valued
    have held_eq : s.depositedAmount = held := was.symm
    rw [← held_eq]
    exact facts valued (slots.reserve_slot s rfl)
  · intro v valued
    have left_eq : (held : ℚ) + c = slot'.depositedAmount := by exact_mod_cast now.symm
    rw [left_eq]
    exact facts valued slots.reserve_slot'

theorem deposit_predicted {amount : Decimal} {s : Scenario}
    (amount_eq : (Decimal.ofInt c / rate : Outcome Decimal) = .ok amount)
    (simulated : o.addDeposit m o.scenario amount r.mint = .ok s) :
    (Obligation.value m o.address a' cr br).OverflowOnly ∧
    ∀ o', Obligation.value m o.address a' cr br = .ok o' → ∃ terms value,
      m.collateralTerms o.elevationGroup r = .ok terms ∧ r.valueOf amount = .ok value ∧
      DepositsNear o.account.usedDeposits.length r terms amount.toRat value.toRat o o' s := by
  obtain ⟨own, terms, value, changed, step⟩ := Obligation.addDeposit_step simulated
  cases fit.onePerMint.reserveOfMint change.onMarket step.reserve_eq
  have terms_eq := step.terms_eq
  obtain ⟨factor, factor_eq, factor_ne, dollars⟩ := Pool.valueOf_steps step.value_eq
  refine ⟨change.value_overflowOnly fit factor_eq factor_ne terms_eq, fun o' revalued => ?_⟩
  refine ⟨terms, value, terms_eq, step.value_eq, ?_⟩
  obtain ⟨-, ds, bs, hds, hbs, sums⟩ := Obligation.value_sums fit.valued
  obtain ⟨-, ds', bs', hds', hbs', sums'⟩ := Obligation.value_sums revalued
  rw [change.group] at hds'
  obtain ⟨slot, slot', slots, place⟩ := change.place factor_eq terms_eq
  have figures := fit.deposit_nonneg hds
  obtain ⟨ltv_nonneg, threshold_nonneg⟩ := fit.unsigned.terms_nonneg
    (AddressMap.mem_values_of_find? change.onMarket) terms_eq
  -- the longest chains of factors; the shorter ones are their beginnings
  have kept := change.kept factor terms factor_eq terms_eq
  have lent := change.scaled fit factor_eq ltv_nonneg fun x listed => (kept x listed).1
  have backed := change.scaled fit factor_eq threshold_nonneg fun x listed => (kept x listed).2
  have values := lent.before (by simp [collateralSteps])
  have amounts := values.before (by simp [collateralSteps])
  have amount_steps : amount.toRat = scaleBy (collateralSteps rate) c := by
    rw [(div_value amount_eq).2, Decimal.toRat_ofInt, div_eq_mul_inv]
    rfl
  have value_steps : value.toRat = scaleBy (collateralSteps rate ++ r.dollarSteps factor) c := by
    rw [dollars, amount_steps, scaleBy_append]
  have share_steps (share : ℚ) : truncate (value.toRat * share) =
      scaleBy (collateralSteps rate ++ r.dollarSteps factor ++ [share]) c := by
    rw [value_steps, scaleBy_append_singleton]
  refine ⟨?_, ?_, ?_, ?_⟩
  · rw [step.totalDeposit, sums'.totalDeposit, Obligation.scenario, sums.totalDeposit, value_steps]
    exact slots.total_near hds hds' place values (fun _ _ facts => facts.value)
      fun v listed => (figures v listed).1
  · rw [step.borrowLimit, sums'.borrowLimit, Obligation.scenario, sums.borrowLimit, share_steps]
    refine slots.share_near hds hds' place lent (fun _ _ facts => ⟨facts.value, ?_⟩)
      fun v listed => ?_
    · rw [facts.terms]
    · obtain ⟨⟨value_nonneg, -⟩, share_nonneg, -⟩ := figures v listed
      exact ⟨value_nonneg, share_nonneg⟩
  · rw [step.liquidationLimit, sums'.liquidationLimit, Obligation.scenario, sums.liquidationLimit,
      share_steps]
    refine slots.share_near hds hds' place backed (fun _ _ facts => ⟨facts.value, ?_⟩)
      fun v listed => ?_
    · rw [facts.terms]
    · obtain ⟨⟨value_nonneg, -⟩, -, share_nonneg⟩ := figures v listed
      exact ⟨value_nonneg, share_nonneg⟩
  · have positions := step.position
    rw [Obligation.scenario, sums.deposits] at positions
    rw [sums.deposits, sums'.deposits]
    exact slots.position_near hds hds' rfl (placedIn_collateral m _ cr) fit.keyed fit.onePerMint
      fit.deposits change.onMarket place amounts values
      (fun _ _ facts => ⟨facts.amount, facts.value⟩) amount_steps value_steps positions _

end

/-! ## Borrows -/

/-- The debt that scaled units recorded at a rate have grown to, or what paying them back
    takes off it. -/
def debtOf (units : ℤ) (rate recordedRate : Decimal) : Outcome Decimal := do
  (← (← Decimal.ofInt units / fractionScale) * rate) / recordedRate

theorem debtOf_steps {units : ℤ} {rate recordedRate amount : Decimal}
    (h : debtOf units rate recordedRate = .ok amount) :
    recordedRate.toRat ≠ 0 ∧ amount.toRat = scaleBy (debtSteps rate recordedRate) units := by
  unfold debtOf at h
  simp only [bind_eq_ok_iff] at h
  obtain ⟨recorded, hrecorded, grown, hgrown, h⟩ := h
  refine ⟨(div_value h).1, ?_⟩
  rw [(div_value h).2, mul_value hgrown, (div_value hrecorded).2, Decimal.toRat_ofInt,
    ScaledFraction.toRat_fractionScale, div_eq_mul_inv, div_eq_mul_inv]
  rfl

structure BorrowChange (m : Market) (rates : Option RateMap) (r : Reserve)
    (rate recordedRate : Decimal) (a a' : ObligationAccount) (held c : ℤ) : Prop where
  onMarket : m.reserveAt? r.address = some r
  rate_eq : rateOf rates r r.cumulativeBorrowRate = .ok rate
  group : a'.elevationGroup = a.elevationGroup
  deposits : a'.usedDeposits = a.usedDeposits
  slots : ∃ slot slot', SlotChange DebtSlot.reserve r.address slot slot' a.usedBorrows
      a'.usedBorrows ∧
    held = slot.elim 0 (·.rawBorrowed) ∧ slot'.rawBorrowed = held + c ∧
    (∀ s ∈ slot, s.cumulativeBorrowRate = .ok recordedRate) ∧
    slot'.cumulativeBorrowRate = .ok recordedRate
  left : 0 ≤ held + c
  /-- No step of valuing what was owed, the change or what is left loses digits. -/
  kept : ∀ factor weight, r.mintFactor = .ok factor → r.debtWeight a.elevationGroup = .ok weight →
    ∀ x ∈ [(held : ℚ), c, held + c],
      KeepsDigits (debtSteps rate recordedRate ++ r.dollarSteps factor ++ [weight.toRat]) x

theorem repayment_sample : BorrowChange Sample.market none Sample.reserve ⟨false, 11, -1⟩
    ⟨false, 11, -1⟩ Sample.borrower Sample.repaid (1000000 * Sample.scale)
    (-(100000 * Sample.scale) - 1) where
  onMarket := by decide
  rate_eq := by decide +kernel
  group := rfl
  deposits := rfl
  slots := ⟨some _, _, .replaced [] [] rfl rfl, rfl, by decide,
    by decide +kernel, by decide +kernel⟩
  left := by decide
  kept := by
    intro factor weight factor_eq weight_eq x listed
    cases (show Sample.reserve.mintFactor = .ok ⟨false, 1, 6⟩ by
      decide +kernel).symm.trans factor_eq
    cases (show Sample.reserve.debtWeight 0 = .ok 1 by decide +kernel).symm.trans weight_eq
    have low : (10 : ℚ) ^ (0 : ℤ) ≤ |x| := by
      simp only [List.mem_cons, List.not_mem_nil, or_false] at listed
      rcases listed with rfl | rfl | rfl <;> norm_num [Sample.scale]
    refine keepsDigits_of_le low (d := 19) ?_ (by norm_num) (by decide)
    decide +kernel

structure DebtFacts (r : Reserve) (weight rate recordedRate factor : Decimal)
    (v : Decimal × Position) (x : ℚ) : Prop where
  weight : v.1 = weight
  amount : v.2.amount.toRat = scaleBy (debtSteps rate recordedRate) x
  value : v.2.value.toRat = scaleBy (debtSteps rate recordedRate ++ r.dollarSteps factor) x

structure BorrowsNear (n : ℕ) (r : Reserve) (weight : Decimal) (amount value : ℚ)
    (o o' : Obligation) (s : Scenario) : Prop where
  totalBorrow : Near n s.stats.totalBorrow.toRat o'.stats.totalBorrow.toRat
    o.stats.totalBorrow.toRat value
  weightedBorrow : Near n s.stats.weightedBorrow.toRat o'.stats.weightedBorrow.toRat
    o.stats.weightedBorrow.toRat (truncate (value * weight.toRat))
  position : ∃ p p', s.borrows.find? r.address = some p ∧ o'.borrows.find? r.address = some p' ∧
    PositionNear n (positionIn o.borrows r) p p' amount value

section
variable {m : Market} {cr br : Option RateMap} {o : Obligation} (fit : Revaluable m cr br o)
  {r : Reserve} {rate recordedRate : Decimal} {a' : ObligationAccount} {held c : ℤ}
  (change : BorrowChange m br r rate recordedRate o.account a' held c)
include fit change

theorem BorrowChange.scaled {factor weight : Decimal} (factor_eq : r.mintFactor = .ok factor)
    (weight_eq : r.debtWeight o.account.elevationGroup = .ok weight) :
    Change (debtSteps rate recordedRate ++ r.dollarSteps factor ++ [weight.toRat]) held c := by
  obtain ⟨slot, slot', slots, was, -, -, recorded⟩ := change.slots
  have listed := AddressMap.mem_values_of_find? change.onMarket
  have rate_pos := fit.borrowRates r listed rate change.rate_eq
  have grown := debtSteps_nonneg rate_pos.le (ScaledFraction.decode_nonneg recorded)
  have dollars := fit.unsigned.dollarSteps_nonneg listed factor_eq
  have steps := List.forall_mem_append.mpr ⟨List.forall_mem_append.mpr ⟨grown, dollars⟩,
    List.forall_mem_singleton.mpr (fit.unsigned.weight_nonneg listed weight_eq)⟩
  refine ⟨by simp [debtSteps], by simp [debtSteps, Pool.dollarSteps], steps, ?_,
    by exact_mod_cast change.left, change.kept factor weight factor_eq weight_eq⟩
  rw [was]
  cases slot with
  | none => simp
  | some s => exact_mod_cast (fit.borrows_known s (slots.mem_old s rfl)).2

/-- The changed account can be valued, up to an overflow. -/
theorem BorrowChange.value_overflowOnly {factor weight : Decimal}
    (factor_eq : r.mintFactor = .ok factor) (factor_ne : factor.toRat ≠ 0)
    (recorded_ne : recordedRate.toRat ≠ 0)
    (weight_eq : r.debtWeight o.account.elevationGroup = .ok weight) :
    (Obligation.value m o.address a' cr br).OverflowOnly := by
  obtain ⟨slot, slot', slots, -, now, -, recorded⟩ := change.slots
  refine Obligation.value_overflowOnly ?_ ?_
  · intro s used
    rw [change.deposits] at used
    rw [change.group]
    exact fit.deposits_known s used
  · intro s used
    rw [change.group]
    rcases slots.mem_new used with kept | rfl
    · exact (fit.borrows_known s kept).1
    · have found : m.reserveAt? s.reserve = some r := by
        rw [slots.reserve_slot']
        exact change.onMarket
      exact ⟨s.valued_overflowOnly (now ▸ change.left) found weight_eq change.rate_eq recorded
        recorded_ne factor_eq factor_ne, r, found⟩

omit fit in
theorem BorrowChange.place {factor weight : Decimal} (factor_eq : r.mintFactor = .ok factor)
    (weight_eq : r.debtWeight o.account.elevationGroup = .ok weight) :
    ∃ slot slot', SlotChange DebtSlot.reserve r.address slot slot' o.account.usedBorrows
        a'.usedBorrows ∧
      Place (DebtSlot.valued m o.account.elevationGroup br)
        (DebtFacts r weight rate recordedRate factor) slot slot' held c := by
  obtain ⟨slot, slot', slots, was, now, recorded, recorded'⟩ := change.slots
  refine ⟨slot, slot', slots, ?_⟩
  have facts {s v} (valued : DebtSlot.valued m o.account.elevationGroup br s = .ok v)
      (address : s.reserve = r.address) (recorded : s.cumulativeBorrowRate = .ok recordedRate) :
      DebtFacts r weight rate recordedRate factor v s.rawBorrowed := by
    have worth := s.worth_in valued (address ▸ change.onMarket) change.rate_eq recorded factor_eq
    exact ⟨Except.ok.inj (worth.weight_eq.symm.trans weight_eq), worth.amount, worth.value⟩
  constructor
  · rintro rfl
    exact_mod_cast was
  · rintro s rfl v valued
    have held_eq : s.rawBorrowed = held := was.symm
    rw [← held_eq]
    exact facts valued (slots.reserve_slot s rfl) (recorded s rfl)
  · intro v valued
    have left_eq : (held : ℚ) + c = slot'.rawBorrowed := by exact_mod_cast now.symm
    rw [left_eq]
    exact facts valued slots.reserve_slot' recorded'

theorem borrow_predicted {amount : Decimal} {s : Scenario}
    (amount_eq : debtOf c rate recordedRate = .ok amount)
    (simulated : o.addBorrow m o.scenario amount r.mint = .ok s) :
    (Obligation.value m o.address a' cr br).OverflowOnly ∧
    ∀ o', Obligation.value m o.address a' cr br = .ok o' → ∃ weight value,
      r.debtWeight o.elevationGroup = .ok weight ∧ r.valueOf amount = .ok value ∧
      BorrowsNear o.account.usedBorrows.length r weight amount.toRat value.toRat o o' s := by
  obtain ⟨own, weight, value, changed, step⟩ := Obligation.addBorrow_step simulated
  cases fit.onePerMint.reserveOfMint change.onMarket step.reserve_eq
  have weight_eq := step.weight_eq
  obtain ⟨factor, factor_eq, factor_ne, dollars⟩ := Pool.valueOf_steps step.value_eq
  obtain ⟨recorded_ne, amount_steps⟩ := debtOf_steps amount_eq
  refine ⟨change.value_overflowOnly fit factor_eq factor_ne recorded_ne weight_eq,
    fun o' revalued => ?_⟩
  refine ⟨weight, value, weight_eq, step.value_eq, ?_⟩
  obtain ⟨-, ds, bs, hds, hbs, sums⟩ := Obligation.value_sums fit.valued
  obtain ⟨-, ds', bs', hds', hbs', sums'⟩ := Obligation.value_sums revalued
  rw [change.group] at hbs'
  obtain ⟨slot, slot', slots, place⟩ := change.place factor_eq weight_eq
  have figures := fit.borrow_nonneg hbs
  have shares := change.scaled fit factor_eq weight_eq
  have values := shares.before (by simp [debtSteps])
  have amounts := values.before (by simp [debtSteps])
  have value_steps : value.toRat =
      scaleBy (debtSteps rate recordedRate ++ r.dollarSteps factor) c := by
    rw [dollars, amount_steps, scaleBy_append]
  have share_steps : truncate (value.toRat * weight.toRat) =
      scaleBy (debtSteps rate recordedRate ++ r.dollarSteps factor ++ [weight.toRat]) c := by
    rw [value_steps, scaleBy_append_singleton]
  refine ⟨?_, ?_, ?_⟩
  · rw [step.totalBorrow, sums'.totalBorrow, Obligation.scenario, sums.totalBorrow, value_steps]
    exact slots.total_near hbs hbs' place values (fun _ _ facts => facts.value)
      fun v listed => (figures v listed).1
  · rw [step.weightedBorrow, sums'.weightedBorrow, Obligation.scenario, sums.weightedBorrow,
      share_steps]
    refine slots.share_near hbs hbs' place shares (fun _ _ facts => ⟨facts.value, ?_⟩)
      fun v listed => ?_
    · rw [facts.weight]
    · obtain ⟨⟨value_nonneg, -⟩, weight_nonneg⟩ := figures v listed
      exact ⟨value_nonneg, weight_nonneg⟩
  · have positions := step.position
    rw [Obligation.scenario, sums.borrows] at positions
    rw [sums.borrows, sums'.borrows]
    exact slots.position_near hbs hbs' rfl (placedIn_debt m _ br) fit.keyed fit.onePerMint
      fit.borrows change.onMarket place amounts values
      (fun _ _ facts => ⟨facts.amount, facts.value⟩) amount_steps value_steps positions _

end

/-! ## Both sides -/

/-- Whatever a change of a deposit or of a debt is, the scenario with the amount of it is near
    the obligation valued anew. -/
structure Predicted (m : Market) (cr br : Option RateMap) (o : Obligation) : Prop where
  deposits : ∀ (r : Reserve) (rate : Decimal) (a' : ObligationAccount) (held c : ℤ),
    DepositChange m cr r rate o.account a' held c →
    ∀ amount s, (Decimal.ofInt c / rate : Outcome Decimal) = .ok amount →
    o.addDeposit m o.scenario amount r.mint = .ok s →
    (Obligation.value m o.address a' cr br).OverflowOnly ∧
    ∀ o', Obligation.value m o.address a' cr br = .ok o' → ∃ terms value,
      m.collateralTerms o.elevationGroup r = .ok terms ∧ r.valueOf amount = .ok value ∧
      DepositsNear o.account.usedDeposits.length r terms amount.toRat value.toRat o o' s
  borrows : ∀ (r : Reserve) (rate recordedRate : Decimal) (a' : ObligationAccount) (held c : ℤ),
    BorrowChange m br r rate recordedRate o.account a' held c →
    ∀ amount s, debtOf c rate recordedRate = .ok amount →
    o.addBorrow m o.scenario amount r.mint = .ok s →
    (Obligation.value m o.address a' cr br).OverflowOnly ∧
    ∀ o', Obligation.value m o.address a' cr br = .ok o' → ∃ weight value,
      r.debtWeight o.elevationGroup = .ok weight ∧ r.valueOf amount = .ok value ∧
      BorrowsNear o.account.usedBorrows.length r weight amount.toRat value.toRat o o' s

end Lending
