/-
  Lending.Proofs.Obligation.Eased — one obligation in two worlds, the second easier to borrow in.

  In the second world the deposits are no smaller, the debts no larger, and the market lends on
  eased terms. Slot by slot the limit is no lower and the weighted debt no higher
  (`CollateralSlot.backing_mono`, `DebtSlot.weighted_anti`), and so are their sums
  (`eased_of_relieved`). With the debts as they were (`eased_of_values`), from there on each step to
  the largest loan keeps the order of the two worlds: the division by the weight and the price,
  the bounds of the reserve and the fee (`Loan.le_of_eased`). A step that could reverse it only
  does where nothing is offered in the first world.
-/
import Lending.Proofs.Market.Eased
import Lending.Proofs.Obligation.MaxBorrow
import Lending.Proofs.Obligation.Revaluable

namespace Lending

open Outcome Truncation

/-! ## Worlds -/

/-- Opened reserves with unsigned settings, prices and borrow factors that are positive, and
    amounts of 64 bits. -/
structure Market.Sound (m : Market) : Prop where
  opened : m.Opened
  price : ∀ r ∈ m.reserves.values, 0 < r.oraclePrice.toRat
  shares : ∀ r ∈ m.reserves.values,
    0 ≤ r.config.loanToValuePct ∧ 0 ≤ r.config.liquidationThresholdPct
  borrowFactor : ∀ r ∈ m.reserves.values, 0 < r.config.borrowFactorPct
  borrowFee : ∀ r ∈ m.reserves.values, 0 ≤ r.config.fees.rawBorrowFee
  available : ∀ r ∈ m.reserves.values, 0 ≤ r.account.liquidity.availableAmount ∧
    r.account.liquidity.availableAmount < 2 ^ 64
  groups : ∀ g ∈ m.account.elevationGroups, 0 ≤ g.ltvPct ∧ 0 ≤ g.liquidationThresholdPct

theorem Market.Sound.unsigned {m : Market} (sound : m.Sound) : m.Unsigned where
  price := fun r listed => (sound.price r listed).le
  loanToValue := fun r listed => share_nonneg (sound.shares r listed).1
    (Pool.settings_of_openReserve (sound.opened r listed)).loanToValue
  liquidationThreshold := fun r listed => share_nonneg (sound.shares r listed).2
    (Pool.settings_of_openReserve (sound.opened r listed)).liquidationThreshold
  borrowFactor := fun r listed => by
    rw [(Pool.settings_of_openReserve (sound.opened r listed)).borrowFactorPct]
    exact (sound.borrowFactor r listed).le
  groups := sound.groups

theorem Market.Sound.lends {m : Market} (sound : m.Sound) {r : Reserve}
    (listed : r ∈ m.reserves.values) : r.Lends where
  opened := sound.opened r listed
  price := sound.price r listed
  borrowFactor := sound.borrowFactor r listed
  available := (sound.available r listed).1
  borrowFee := sound.borrowFee r listed

structure CollateralSlot.ToppedUp (s s' : CollateralSlot) : Prop where
  same : s' = { s with depositedAmount := s'.depositedAmount }
  amount : s.depositedAmount ≤ s'.depositedAmount

structure ObligationAccount.ToppedUp (a a' : ObligationAccount) : Prop where
  same : a' = { a with deposits := a'.deposits }
  deposits : List.Forall₂ CollateralSlot.ToppedUp a.deposits a'.deposits

structure DebtSlot.Repaid (s s' : DebtSlot) : Prop where
  same : s' = { s with rawBorrowed := s'.rawBorrowed }
  amount : s'.rawBorrowed ≤ s.rawBorrowed

structure ObligationAccount.Relieved (a a' : ObligationAccount) : Prop where
  same : a' = { a with deposits := a'.deposits, borrows := a'.borrows }
  deposits : List.Forall₂ CollateralSlot.ToppedUp a.deposits a'.deposits
  borrows : List.Forall₂ DebtSlot.Repaid a.borrows a'.borrows

theorem CollateralSlot.ToppedUp.reserve_eq {s s' : CollateralSlot} (more : s.ToppedUp s') :
    s'.reserve = s.reserve := by
  rw [more.same]

theorem DebtSlot.Repaid.reserve_eq {s s' : DebtSlot} (less : s.Repaid s') :
    s'.reserve = s.reserve := by
  rw [less.same]

namespace ObligationAccount

variable {a a' : ObligationAccount}

theorem ToppedUp.relieved (more : a.ToppedUp a') : a.Relieved a' := by
  obtain ⟨same, deposits⟩ := more
  have borrows : a'.borrows = a.borrows := by rw [same]
  refine ⟨by rw [borrows]; exact same, deposits, ?_⟩
  rw [borrows]
  exact List.forall₂_same.mpr fun s _ => ⟨rfl, le_rfl⟩

namespace Relieved

variable (h : a.Relieved a')
include h

theorem elevationGroup_eq : a'.elevationGroup = a.elevationGroup := by
  rw [h.same]

theorem usedDeposits : List.Forall₂ CollateralSlot.ToppedUp a.usedDeposits a'.usedDeposits := by
  refine List.rel_filter (fun s s' pair => ?_) h.deposits
  show isUsedAddress s.reserve ↔ isUsedAddress s'.reserve
  rw [pair.reserve_eq]

theorem usedBorrows : List.Forall₂ DebtSlot.Repaid a.usedBorrows a'.usedBorrows := by
  refine List.rel_filter (fun s s' pair => ?_) h.borrows
  show isUsedAddress s.reserve ↔ isUsedAddress s'.reserve
  rw [pair.reserve_eq]

end Relieved

end ObligationAccount

/-! ## Slots -/

/-- The rate of a reserve is looked up by its address. -/
theorem rateOf_eq_of_address (rates : Option RateMap) {r r' : Reserve} (own : Outcome Decimal)
    (same : r'.address = r.address) : rateOf rates r' own = rateOf rates r own := by
  unfold rateOf
  rw [same]

section
variable {m m' : Market} (eased : m.Eased m') (unsigned : m.Unsigned) {group : ℤ}
  {rates : Option RateMap}
include eased unsigned

/-- A deposit that is no smaller is no less limit. -/
theorem CollateralSlot.backing_mono {s s' : CollateralSlot} (more : s.ToppedUp s')
    (rated : ∀ r, m.reserveAt? s.reserve = some r → ∀ rate,
      rateOf rates r r.exchangeRate = .ok rate → 0 < rate.toRat)
    {v v' : CollateralTerms × Position} (h : s.valued m group rates = .ok v)
    (h' : s'.valued m' group rates = .ok v') :
    truncate (v.2.value.toRat * v.1.loanToValue.toRat) ≤
      truncate (v'.2.value.toRat * v'.1.loanToValue.toRat) := by
  obtain ⟨r, rate, factor, worth⟩ := s.worth h
  obtain ⟨r', rate', factor', worth'⟩ := s'.worth h'
  have found' := worth'.reserveAt
  rw [more.reserve_eq] at found'
  have reserve := eased.reserveAt? worth.reserveAt found'
  have terms := worth'.terms_eq
  rw [← eased.collateralTerms_eq reserve] at terms
  have same_terms : v'.1 = v.1 := Except.ok.inj (terms.symm.trans worth.terms_eq)
  obtain ⟨limit, pct, -, -, same⟩ := reserve.pool
  have rate_eq := worth'.rate_eq
  have factor_eq := worth'.factor_eq
  have value_eq := worth'.value
  rw [rateOf_eq_of_address rates (r := r) _ (by rw [same, Pool.address_withDebtTerms]), same,
    Pool.exchangeRate_withDebtTerms] at rate_eq
  rw [same, Pool.mintFactor_withDebtTerms] at factor_eq
  cases worth.rate_eq.symm.trans rate_eq
  cases worth.factor_eq.symm.trans factor_eq
  have listed := AddressMap.mem_values_of_find? worth.reserveAt
  have rate_pos := rated r worth.reserveAt rate worth.rate_eq
  have steps := List.forall_mem_append.mpr ⟨collateralSteps_nonneg rate_pos.le,
    unsigned.dollarSteps_nonneg listed worth.factor_eq⟩
  have amount_le : (s.depositedAmount : ℚ) ≤ s'.depositedAmount := by exact_mod_cast more.amount
  have value_le : v.2.value.toRat ≤ v'.2.value.toRat := by
    rw [value_eq, worth.value, same]
    exact scaleBy_mono_right steps amount_le
  rw [same_terms]
  exact truncate_mono (mul_le_mul_of_nonneg_right value_le
    (unsigned.terms_nonneg listed worth.terms_eq).1)

omit eased in
/-- The factors of a debt are not negative. -/
theorem DebtSlot.Worth.steps_nonneg {s : DebtSlot} {v : Decimal × Position} {r : Reserve}
    {rate recordedRate factor : Decimal} (worth : s.Worth m group rates v r rate recordedRate factor)
    (rated : ∀ map, rates = some map → ∀ rate ∈ map.values, 0 ≤ rate.toRat) :
    ∀ step ∈ debtSteps rate recordedRate ++ r.dollarSteps factor, 0 ≤ step := by
  have rate_nonneg : 0 ≤ rate.toRat := by
    cases rates with
    | none => exact ScaledFraction.decode_nonneg worth.rate_eq
    | some map =>
      exact rated map rfl rate (AddressMap.mem_values_of_find?
        (rateOf_some_eq_ok_iff.mp worth.rate_eq))
  exact List.forall_mem_append.mpr ⟨debtSteps_nonneg rate_nonneg
    (ScaledFraction.decode_nonneg worth.recordedRate_eq), unsigned.dollarSteps_nonneg
    (AddressMap.mem_values_of_find? worth.reserveAt) worth.factor_eq⟩

omit eased in
theorem DebtSlot.weighted_nonneg {s : DebtSlot}
    (rated : ∀ map, rates = some map → ∀ rate ∈ map.values, 0 ≤ rate.toRat)
    {v : Decimal × Position} (h : s.valued m group rates = .ok v) :
    0 ≤ truncate (v.2.value.toRat * v.1.toRat) := by
  obtain ⟨r, rate, recordedRate, factor, worth⟩ := s.worth h
  rw [worth.value]
  refine truncate_nonneg (mul_nonneg ?_ ?_)
  · exact scaleBy_nonneg (worth.steps_nonneg unsigned rated) (by exact_mod_cast worth.recorded)
  · exact unsigned.weight_nonneg (AddressMap.mem_values_of_find? worth.reserveAt) worth.weight_eq

/-- A debt that is no larger weighs no more. -/
theorem DebtSlot.weighted_anti {s s' : DebtSlot} (less : s.Repaid s')
    (rated : ∀ map, rates = some map → ∀ rate ∈ map.values, 0 ≤ rate.toRat)
    {v v' : Decimal × Position} (h : s.valued m group rates = .ok v)
    (h' : s'.valued m' group rates = .ok v') :
    truncate (v'.2.value.toRat * v'.1.toRat) ≤ truncate (v.2.value.toRat * v.1.toRat) := by
  obtain ⟨r, rate, recordedRate, factor, worth⟩ := s.worth h
  obtain ⟨r', rate', recordedRate', factor', worth'⟩ := s'.worth h'
  have found' := worth'.reserveAt
  rw [less.reserve_eq] at found'
  have reserve := eased.reserveAt? worth.reserveAt found'
  have weight_le := reserve.weight_anti worth.weight_eq worth'.weight_eq
  have recorded' : s.cumulativeBorrowRate = .ok recordedRate' := by
    have own := worth'.recordedRate_eq
    rwa [less.same] at own
  obtain ⟨limit, pct, -, -, same⟩ := reserve.pool
  have rate_eq := worth'.rate_eq
  have factor_eq := worth'.factor_eq
  have value_eq := worth'.value
  rw [rateOf_eq_of_address rates (r := r) _ (by rw [same, Pool.address_withDebtTerms]), same,
    Pool.cumulativeBorrowRate_withDebtTerms] at rate_eq
  rw [same, Pool.mintFactor_withDebtTerms] at factor_eq
  cases worth.rate_eq.symm.trans rate_eq
  cases worth.recordedRate_eq.symm.trans recorded'
  cases worth.factor_eq.symm.trans factor_eq
  have steps := worth.steps_nonneg unsigned rated
  have recorded_le : (s'.rawBorrowed : ℚ) ≤ s.rawBorrowed := by exact_mod_cast less.amount
  have value_le : v'.2.value.toRat ≤ v.2.value.toRat := by
    rw [value_eq, worth.value, same]
    exact scaleBy_mono_right steps recorded_le
  have value_nonneg : 0 ≤ v'.2.value.toRat := by
    rw [value_eq, same]
    exact scaleBy_nonneg steps (by exact_mod_cast worth'.recorded)
  have weight_nonneg :=
    unsigned.weight_nonneg (AddressMap.mem_values_of_find? worth.reserveAt) worth.weight_eq
  exact truncate_mono ((mul_le_mul_of_nonneg_left weight_le value_nonneg).trans
    (mul_le_mul_of_nonneg_right value_le weight_nonneg))

end

/-! ## Obligations -/

structure Obligation.Eased (o o' : Obligation) : Prop where
  group : o.elevationGroup = o'.elevationGroup
  borrowLimit : o.stats.borrowLimit.toRat ≤ o'.stats.borrowLimit.toRat
  weightedBorrow : o'.stats.weightedBorrow.toRat ≤ o.stats.weightedBorrow.toRat

theorem Obligation.eased_of_relieved {m m' : Market} (eased : m.Eased m') (unsigned : m.Unsigned)
    {a a' : ObligationAccount} (less : a.Relieved a') {address : String} {cr br : Option RateMap}
    (exchange : ∀ s ∈ a.usedDeposits, ∀ r, m.reserveAt? s.reserve = some r → ∀ rate,
      rateOf cr r r.exchangeRate = .ok rate → 0 < rate.toRat)
    (owing : ∀ map, br = some map → ∀ rate ∈ map.values, 0 ≤ rate.toRat) {o o' : Obligation}
    (h : value m address a cr br = .ok o) (h' : value m' address a' cr br = .ok o') :
    o.Eased o' := by
  obtain ⟨account, ds, bs, hds, hbs, sums⟩ := value_sums h
  obtain ⟨account', ds', bs', hds', hbs', sums'⟩ := value_sums h'
  rw [less.elevationGroup_eq] at hds' hbs'
  refine ⟨?_, ?_, ?_⟩
  · unfold elevationGroup
    rw [account, account', less.elevationGroup_eq]
  · rw [sums.borrowLimit, sums'.borrowLimit]
    refine runningSum_mono ?_
    rw [List.forall₂_map_left_iff, List.forall₂_map_right_iff]
    exact forall₂_of_mapM_of_related hds hds' less.usedDeposits fun s used s' pair v v' =>
      CollateralSlot.backing_mono eased unsigned pair (exchange s used)
  · rw [sums.weightedBorrow, sums'.weightedBorrow]
    refine runningSum_mono ?_
    rw [List.forall₂_map_left_iff, List.forall₂_map_right_iff]
    exact (forall₂_of_mapM_of_related hbs hbs' less.usedBorrows fun s _ s' pair v v' =>
      DebtSlot.weighted_anti eased unsigned pair owing).flip

theorem Obligation.eased_of_values {m m' : Market} (eased : m.Eased m') (unsigned : m.Unsigned)
    {a a' : ObligationAccount} (more : a.ToppedUp a') {address : String} {cr br : Option RateMap}
    (exchange : ∀ s ∈ a.usedDeposits, ∀ r, m.reserveAt? s.reserve = some r → ∀ rate,
      rateOf cr r r.exchangeRate = .ok rate → 0 < rate.toRat)
    (owing : ∀ map, br = some map → ∀ rate ∈ map.values, 0 ≤ rate.toRat) {o o' : Obligation}
    (h : value m address a cr br = .ok o) (h' : value m' address a' cr br = .ok o') :
    o.Eased o' :=
  eased_of_relieved eased unsigned more.relieved exchange owing h h'

namespace Obligation.Eased

variable {o o' : Obligation} (h : o.Eased o')
include h

theorem spareLimit_le : o.spareLimit ≤ o'.spareLimit :=
  truncate_mono (sub_le_sub h.borrowLimit h.weightedBorrow)

section
variable {r r' : Reserve} (reserve : r.Eased r')
include reserve

theorem groupIncludes_eq : o.groupIncludes r = o'.groupIncludes r' := by
  obtain ⟨limit, pct, -, -, same⟩ := reserve.pool
  unfold groupIncludes
  rw [h.group, same]
  rfl

/-- A loan weighs no more on eased terms. -/
theorem loanWeight_anti {weight weight' : Decimal} (weighed : o.loanWeight r = .ok weight)
    (weighed' : o'.loanWeight r' = .ok weight') : weight'.toRat ≤ weight.toRat := by
  unfold loanWeight at weighed weighed'
  rw [h.groupIncludes_eq reserve] at weighed
  split at weighed
  · rename_i grouped
    rw [if_pos grouped] at weighed'
    cases weighed
    cases weighed'
    exact le_rfl
  · rename_i alone
    rw [if_neg alone] at weighed'
    obtain ⟨limit, pct, -, less, same⟩ := reserve.pool
    rw [same] at weighed'
    rw [shareOfPercent_value weighed, shareOfPercent_value weighed']
    refine truncate_mono (div_le_div_of_nonneg_right ?_ (by norm_num))
    exact_mod_cast less

theorem lendableRemainder_mono {remaining remaining' : Decimal}
    (left : o.lendableRemainder r = .ok remaining)
    (left' : o'.lendableRemainder r' = .ok remaining') :
    remaining.toRat ≤ remaining'.toRat := by
  obtain ⟨f⟩ := Pool.figures_of_openReserve reserve.opened
  have included := h.groupIncludes_eq reserve
  obtain ⟨limit, pct, more, -, same⟩ := reserve.pool
  have borrowed' : r'.borrowed = .ok f.debt := by
    rw [same, Pool.borrowed_withDebtTerms]
    exact f.borrowed_eq
  rw [lendableRemainder_value reserve.opened f.borrowed_eq left,
    lendableRemainder_value reserve.reopened borrowed' left', included, same]
  show _ ≤ if r.config.collateralOnlyInGroups = 1 ∧ ¬ o'.groupIncludes r' then _ else _
  split
  · exact le_rfl
  · refine truncate_mono (sub_le_sub_right ?_ _)
    exact_mod_cast more

end

end Obligation.Eased

/-! ## The largest loan -/

section
variable {o o' : Obligation} {slot : ℤ} {r r' : Reserve} {x weight factor power remaining capped
  net x' weight' factor' power' remaining' capped' net' : Decimal}

/-- An amount of 64 bits is a figure, so what the caps leave of a loan is one too. -/
theorem Obligation.Loan.representable_capped
    (loan : o.Loan slot r x weight factor power remaining capped net)
    (opened : r.toPool.openReserve = .ok r) (unsigned : 0 ≤ r.account.liquidity.availableAmount)
    (word : r.account.liquidity.availableAmount < 2 ^ 64) : Representable capped.toRat := by
  have available_exact : Representable r.available.toRat := by
    rw [Pool.available, Decimal.toRat_ofInt]
    refine representable_intCast ?_
    rw [abs_of_nonneg unsigned]
    exact word.trans (by norm_num)
  have remaining_exact : Representable remaining.toRat := by
    obtain ⟨f⟩ := Pool.figures_of_openReserve opened
    rw [lendableRemainder_value opened f.borrowed_eq loan.remaining_eq]
    split
    · exact representable_zero
    · exact representable_truncate _
  refine Pool.representable_withinOutflow loan.capped_eq ?_
  rw [Decimal.toRat_min, Decimal.toRat_min]
  exact (loan.representable_power.min available_exact).min remaining_exact

section
variable (loan : o.Loan slot r x weight factor power remaining capped net)
  (loan' : o'.Loan slot r' x' weight' factor' power' remaining' capped' net')
  (eased : o.Eased o') (reserve : r.Eased r') (lends : r.Lends) (lends' : r'.Lends)
include loan loan' eased reserve lends lends'

theorem Obligation.Loan.power_mono (spare : 0 ≤ o.spareLimit) : power.toRat ≤ power'.toRat := by
  have weight_anti := eased.loanWeight_anti reserve loan.weight_eq loan'.weight_eq
  have weight_pos := loanWeight_pos lends loan.weight_eq
  have weight_pos' := loanWeight_pos lends' loan'.weight_eq
  obtain ⟨limit, pct, -, -, same⟩ := reserve.pool
  have factor_eq := loan'.factor_eq
  rw [same, Pool.mintFactor_withDebtTerms] at factor_eq
  cases loan.factor_eq.symm.trans factor_eq
  rw [loan.power_steps, loan'.power_steps, same]
  exact scaleBy_mono (.cons ⟨inv_nonneg.mpr weight_pos.le, inv_anti₀ weight_pos' weight_anti⟩
    (.cons ⟨inv_nonneg.mpr lends.price.le, le_rfl⟩
      (.cons ⟨Pool.mintFactor_nonneg loan.factor_eq, le_rfl⟩ .nil))) spare eased.spareLimit_le

theorem Obligation.Loan.capped_mono (spare : 0 ≤ o.spareLimit) :
    capped.toRat ≤ capped'.toRat := by
  have power_mono := loan.power_mono loan' eased reserve lends lends' spare
  have remaining_mono := eased.lendableRemainder_mono reserve loan.remaining_eq loan'.remaining_eq
  have capped_eq := loan'.capped_eq
  obtain ⟨limit, pct, -, -, same⟩ := reserve.pool
  rw [same, Pool.withinDebtOutflow_withDebtTerms, Pool.available_withDebtTerms] at capped_eq
  refine Pool.withinOutflow_mono loan.capped_eq capped_eq ?_
  simp only [Decimal.toRat_min]
  exact min_le_min (min_le_min power_mono le_rfl) remaining_mono

theorem Obligation.Loan.le_of_eased (word : r.account.liquidity.availableAmount < 2 ^ 64) :
    x.toRat ≤ x'.toRat := by
  obtain ⟨nonneg', -, -, -, -⟩ := loan'.le_bounds
  rcases le_or_gt x.toRat 0 with none | offered
  · exact none.trans nonneg'
  -- what is offered in the first world comes from a limit that is left there
  have capped_mono := loan.capped_mono loan' eased reserve lends lends'
    (loan.spareLimit_nonneg lends offered)
  have exact := loan.representable_capped lends.opened lends.available word
  have net_eq := loan'.net_eq
  obtain ⟨limit, pct, -, -, same⟩ := reserve.pool
  have exact' := loan'.representable_capped lends'.opened lends'.available (by
    rw [same]
    exact word)
  rw [same, Pool.netOfBorrowFee_withDebtTerms] at net_eq
  rw [loan.value, loan'.value]
  exact max_le_max le_rfl (Pool.netOfBorrowFee_mono loan.net_eq net_eq exact.fewDigits exact'
    (loan.capped_pos offered).le capped_mono)

end

end

/-! ## Samples -/

namespace Sample

def reserveOn (borrowLimit borrowFactorPct : ℤ) : Reserve where
  toPool := pool.withDebtTerms borrowLimit borrowFactorPct
  stats := { stats with borrowLimit := Decimal.ofInt borrowLimit, borrowFactorPct }

def marketOn (borrowLimit borrowFactorPct : ℤ) : Market :=
  { market with reserves := ⟨[("reserve", reserveOn borrowLimit borrowFactorPct)]⟩ }

end Sample

/-- Larger deposits, a higher limit on the debt of the reserve and a lower borrow factor never
    make the largest loan smaller. -/
theorem Obligation.maxBorrow_mono {m m' : Market} (sound : m.Sound) (sound' : m'.Sound)
    (eased : m.Eased m') {a a' : ObligationAccount} (more : a.ToppedUp a') {address : String}
    {cr br : Option RateMap}
    (exchange : ∀ s ∈ a.usedDeposits, ∀ r, m.reserveAt? s.reserve = some r → ∀ rate,
      rateOf cr r r.exchangeRate = .ok rate → 0 < rate.toRat)
    (owing : ∀ map, br = some map → ∀ rate ∈ map.values, 0 ≤ rate.toRat) {o o' : Obligation}
    (valued : value m address a cr br = .ok o) (valued' : value m' address a' cr br = .ok o')
    {mint : String} {slot : ℤ} {x x' : Decimal} (h : o.maxBorrow m mint slot = .ok x)
    (h' : o'.maxBorrow m' mint slot = .ok x') : x.toRat ≤ x'.toRat := by
  obtain ⟨r, found, -⟩ := bind_eq_ok_iff.mp h
  obtain ⟨r', found', -⟩ := bind_eq_ok_iff.mp h'
  obtain ⟨weight, factor, power, remaining, capped, net, loan⟩ := loan_of_maxBorrow found h
  obtain ⟨weight', factor', power', remaining', capped', net', loan'⟩ :=
    loan_of_maxBorrow found' h'
  have listed : r ∈ m.reserves.values := List.mem_of_find?_eq_some (ofOption_eq_ok_iff.mp found)
  have listed' : r' ∈ m'.reserves.values :=
    List.mem_of_find?_eq_some (ofOption_eq_ok_iff.mp found')
  exact loan.le_of_eased loan' (eased_of_values eased sound.unsigned more exchange owing valued
    valued') (eased.reserveOfMint found found') (sound.lends listed) (sound'.lends listed')
    (sound.available r listed).2

theorem Market.sound_sample : (Sample.marketOn 3001000000 125).Sound ∧
    (Sample.marketOn 4001000000 110).Sound := by
  constructor <;>
    exact ⟨by decide +kernel, by decide +kernel, by decide, by decide, by decide, by decide,
      by decide⟩

theorem Market.eased_sample :
    (Sample.marketOn 3001000000 125).Eased (Sample.marketOn 4001000000 110) where
  address := rfl
  account := rfl
  reserves := .cons ⟨rfl, by decide +kernel, by decide +kernel,
    4001000000, 110, by decide, by decide, rfl⟩ .nil

/-- Each of the three changes lets the sample borrower take more. -/
theorem Obligation.maxBorrow_mono_sample : ∃ o o' x x',
    value (Sample.marketOn 3001000000 125) "obligation" Sample.withdrawn none none = .ok o ∧
    value (Sample.marketOn 4001000000 110) "obligation" Sample.borrower none none = .ok o' ∧
    o.maxBorrow (Sample.marketOn 3001000000 125) "token" 1000 = .ok x ∧
    o'.maxBorrow (Sample.marketOn 4001000000 110) "token" 1000 = .ok x' ∧
    0 < x.toRat ∧ x ≠ x' ∧ x.toRat ≤ x'.toRat := by
  obtain ⟨o, valued, computed⟩ := bind_eq_ok_iff.mp (show (value (Sample.marketOn 3001000000 125)
    "obligation" Sample.withdrawn none none >>= fun o =>
      o.maxBorrow (Sample.marketOn 3001000000 125) "token" 1000) =
        .ok ⟨false, 9035881353849435897435897435897435897432, -34⟩ by decide +kernel)
  obtain ⟨o', valued', computed'⟩ := bind_eq_ok_iff.mp (show (value
    (Sample.marketOn 4001000000 110) "obligation" Sample.borrower none none >>= fun o =>
      o.maxBorrow (Sample.marketOn 4001000000 110) "token" 1000) =
        .ok ⟨false, 1909089454545454545454545454545454545454, -33⟩ by decide +kernel)
  have more : Sample.withdrawn.ToppedUp Sample.borrower :=
    ⟨rfl, .cons ⟨rfl, by decide⟩ (.cons ⟨rfl, by decide⟩ .nil)⟩
  have exchange : ∀ s ∈ Sample.withdrawn.usedDeposits, ∀ r,
      (Sample.marketOn 3001000000 125).reserveAt? s.reserve = some r → ∀ rate,
      rateOf none r r.exchangeRate = .ok rate → 0 < rate.toRat := by
    intro s used r there rate rated
    have listed := AddressMap.mem_values_of_find? there
    rw [List.mem_singleton.mp listed] at rated
    cases (show (Sample.reserveOn 3001000000 125).exchangeRate = .ok Sample.rate by
      decide +kernel).symm.trans rated
    decide +kernel
  exact ⟨o, o', _, _, valued, valued', computed, computed', by decide +kernel, by decide,
    maxBorrow_mono Market.sound_sample.1 Market.sound_sample.2 Market.eased_sample more exchange
      (fun _ none => by cases none) valued valued' computed computed'⟩

end Lending
