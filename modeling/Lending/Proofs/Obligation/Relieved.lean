/-
  Lending.Proofs.Obligation.Relieved — of more collateral against less debt, no less can go.

  An account is relieved if no deposit of it is smaller and no debt larger. Its limit is no lower
  and its weighted debt no higher (`Obligation.eased_of_relieved`), and no position of its deposits
  is smaller (`deposit_mono`). The largest withdrawal has three cases: all of the deposit without
  debt, nothing at the limit, and a chain of factors between. A relieved account never falls back
  from one of them to a worse one, and within the last the chain keeps the order (`power_mono`).
-/
import Lending.Proofs.Obligation.Eased
import Lending.Proofs.Obligation.MaxWithdraw

namespace Lending

open Outcome Truncation

/-! ## Deposits -/

/-- Tokens of a deposit that is no smaller are no fewer. -/
theorem CollateralSlot.amount_mono {m : Market} {group : ℤ} {rates : Option RateMap}
    {s s' : CollateralSlot} (more : s.ToppedUp s')
    (rated : ∀ r, m.reserveAt? s.reserve = some r → ∀ rate,
      rateOf rates r r.exchangeRate = .ok rate → 0 < rate.toRat)
    {v v' : CollateralTerms × Position} (h : s.valued m group rates = .ok v)
    (h' : s'.valued m group rates = .ok v') :
    v.2.reserve = v'.2.reserve ∧ v.2.amount.toRat ≤ v'.2.amount.toRat := by
  obtain ⟨r, rate, factor, worth⟩ := s.worth h
  have found := worth.reserveAt
  rw [← more.reserve_eq] at found
  have worth' := s'.worth_in h' found worth.rate_eq worth.factor_eq
  have amount_le : (s.depositedAmount : ℚ) ≤ s'.depositedAmount := by exact_mod_cast more.amount
  refine ⟨worth.reserve.trans worth'.reserve.symm, ?_⟩
  rw [worth.amount, worth'.amount]
  exact scaleBy_mono_right
    (collateralSteps_nonneg (rated r worth.reserveAt rate worth.rate_eq).le) amount_le

theorem CollateralSlot.amount_nonneg {m : Market} {group : ℤ} {rates : Option RateMap}
    {s : CollateralSlot} (stored : 0 ≤ s.depositedAmount)
    (rated : ∀ r, m.reserveAt? s.reserve = some r → ∀ rate,
      rateOf rates r r.exchangeRate = .ok rate → 0 < rate.toRat)
    {v : CollateralTerms × Position} (h : s.valued m group rates = .ok v) :
    0 ≤ v.2.amount.toRat := by
  obtain ⟨r, rate, factor, worth⟩ := s.worth h
  rw [worth.amount]
  exact scaleBy_nonneg (collateralSteps_nonneg (rated r worth.reserveAt rate worth.rate_eq).le)
    (by exact_mod_cast stored)

/-- Positions that are related one by one are found related at every address. -/
theorem rel_find?_positionMap {R : Position → Position → Prop} {ps ps' : List Position}
    (related : List.Forall₂ (fun p p' => p.reserve = p'.reserve ∧ R p p') ps ps')
    (address : String) :
    Option.Rel R ((positionMap ps).find? address) ((positionMap ps').find? address) := by
  refine AddressMap.rel_find? (AddressMap.forall₂_ofList (fun _ _ pair => pair.1) ?_) address
  rwa [List.forall₂_map_left_iff, List.forall₂_map_right_iff]

namespace Obligation

structure Relieved (o o' : Obligation) : Prop where
  eased : o.Eased o'
  owed : 0 ≤ o'.stats.weightedBorrow.toRat
  deposits : ∀ address p p', o.deposits.find? address = some p →
    o'.deposits.find? address = some p' → 0 ≤ p.amount.toRat ∧ p.amount.toRat ≤ p'.amount.toRat

theorem relieved_of_values {m : Market} (opened : m.Opened) (unsigned : m.Unsigned)
    {a a' : ObligationAccount} (less : a.Relieved a')
    (stored : ∀ s ∈ a.usedDeposits, 0 ≤ s.depositedAmount) {address : String}
    {cr br : Option RateMap}
    (exchange : ∀ s ∈ a.usedDeposits, ∀ r, m.reserveAt? s.reserve = some r → ∀ rate,
      rateOf cr r r.exchangeRate = .ok rate → 0 < rate.toRat)
    (owing : ∀ map, br = some map → ∀ rate ∈ map.values, 0 ≤ rate.toRat) {o o' : Obligation}
    (h : value m address a cr br = .ok o) (h' : value m address a' cr br = .ok o') :
    o.Relieved o' := by
  obtain ⟨-, ds, bs, hds, -, sums⟩ := value_sums h
  obtain ⟨-, ds', bs', hds', hbs', sums'⟩ := value_sums h'
  rw [less.elevationGroup_eq] at hds'
  refine ⟨eased_of_relieved (.refl opened) unsigned less exchange owing h h', ?_,
    fun address p p' there there' => ?_⟩
  · rw [sums'.weightedBorrow]
    refine runningSum_nonneg fun figure listed => ?_
    obtain ⟨v, held, rfl⟩ := List.mem_map.mp listed
    obtain ⟨s, -, valued⟩ := exists_of_mem_mapM hbs' held
    exact DebtSlot.weighted_nonneg unsigned owing valued
  · have related : List.Forall₂ (fun p p' : Position => p.reserve = p'.reserve ∧
        0 ≤ p.amount.toRat ∧ p.amount.toRat ≤ p'.amount.toRat) (ds.map (·.2)) (ds'.map (·.2)) := by
      rw [List.forall₂_map_left_iff, List.forall₂_map_right_iff]
      refine forall₂_of_mapM_of_related hds hds' less.usedDeposits
        fun s used s' pair v v' valued valued' => ?_
      obtain ⟨same, mono⟩ := CollateralSlot.amount_mono pair (exchange s used) valued valued'
      exact ⟨same, CollateralSlot.amount_nonneg (stored s used) (exchange s used) valued, mono⟩
    have found := rel_find?_positionMap related address
    rw [← sums.deposits, ← sums'.deposits, there, there'] at found
    cases found
    assumption

/-! ## Withdrawals -/

theorem withdrawLtv_nonneg {o : Obligation} {m : Market} (unsigned : m.Unsigned) {r : Reserve}
    (listed : r ∈ m.reserves.values) {ltv : Decimal} (h : o.withdrawLtv m r = .ok ltv) :
    0 ≤ ltv.toRat := by
  unfold withdrawLtv at h
  split at h
  · obtain ⟨g, hg, h⟩ := bind_eq_ok_iff.mp h
    have found := ofOption_eq_ok_iff.mp hg
    split at found
    · cases found
    · exact share_nonneg (unsigned.groups g (List.mem_of_getElem? found)).1 h
  · cases h
    exact unsigned.loanToValue r listed

section
variable {o o' : Obligation} (h : o.Relieved o') {m : Market} (unsigned : m.Unsigned)
  {r : Reserve} (listed : r ∈ m.reserves.values) {slot : ℤ} {p p' : Position}
  (there : o.deposits.find? r.address = some p) (there' : o'.deposits.find? r.address = some p')
  {x ltv power payable x' ltv' power' payable' : Decimal}
include h unsigned listed there there'

/-- The chain of factors keeps the order; at a loan-to-value of zero the deposits do. -/
theorem Withdrawal.power_mono (fit : o.Withdrawal m slot r p x ltv power payable)
    (fit' : o'.Withdrawal m slot r p' x' ltv' power' payable') : power.toRat ≤ power'.toRat := by
  have same_ltv : o'.withdrawLtv m r = o.withdrawLtv m r := by
    unfold withdrawLtv groupIncludes
    rw [h.eased.group]
  cases fit.ltv_eq.symm.trans (same_ltv.symm.trans fit'.ltv_eq)
  by_cases none : ltv.toRat = 0
  · have zero := (Decimal.isZero_iff ltv).mpr none
    have all {o : Obligation} {deposited power : Decimal}
        (h : o.withdrawPower r ltv deposited = .ok power) : power = deposited := by
      unfold withdrawPower at h
      rw [if_pos zero] at h
      exact (Except.ok.inj h).symm
    rw [all fit.power_eq, all fit'.power_eq]
    exact (h.deposits r.address p p' there there').2
  · obtain ⟨factor, hfactor, steps⟩ := withdrawPower_steps fit.power_eq none
    obtain ⟨factor', hfactor', steps'⟩ := withdrawPower_steps fit'.power_eq none
    cases hfactor.symm.trans hfactor'
    rw [steps, steps']
    exact scaleBy_mono_right (Pool.withdrawSteps_nonneg (withdrawLtv_nonneg unsigned listed
      fit.ltv_eq) (unsigned.price r listed) (Pool.mintFactor_nonneg hfactor)) h.eased.spareLimit_le

theorem Withdrawal.le_of_relieved (fit : o.Withdrawal m slot r p x ltv power payable)
    (fit' : o'.Withdrawal m slot r p' x' ltv' power' payable') : x.toRat ≤ x'.toRat := by
  have power_mono := fit.power_mono h unsigned listed there there' fit'
  have deposit_mono := (h.deposits r.address p p' there there').2
  rw [fit.amount, fit'.amount, Decimal.toRat_max, Decimal.toRat_max]
  refine max_le_max_left _ (Pool.withinOutflow_mono fit.payable_eq fit'.payable_eq ?_)
  simp only [Decimal.toRat_min]
  exact min_le_min (min_le_min deposit_mono power_mono) le_rfl

end

/-- Neither a smaller debt nor a larger deposit makes the largest withdrawal smaller. -/
theorem Relieved.largest_mono {o o' : Obligation} (h : o.Relieved o') {m : Market}
    (unsigned : m.Unsigned) {mint : String} {slot : ℤ} {x x' : Decimal}
    (most : o.maxWithdraw m mint slot = .ok x) (most' : o'.maxWithdraw m mint slot = .ok x') :
    x.toRat ≤ x'.toRat := by
  obtain ⟨r, found, -⟩ := bind_eq_ok_iff.mp most
  have listed : r ∈ m.reserves.values := List.mem_of_find?_eq_some (ofOption_eq_ok_iff.mp found)
  obtain ⟨p, there, cases⟩ := maxWithdraw_cases found most
  obtain ⟨p', there', cases'⟩ := maxWithdraw_cases found most'
  obtain ⟨deposit_nonneg, deposit_mono⟩ := h.deposits r.address p p' there there'
  have debt_anti := h.eased.weightedBorrow
  have limit_mono := h.eased.borrowLimit
  have x_le_deposit : x.toRat ≤ p.amount.toRat := by
    obtain ⟨-, rfl⟩ | ⟨-, -, rfl⟩ | ⟨-, -, ltv, power, payable, fit⟩ := cases
    · exact le_rfl
    · rw [Decimal.toRat_zero]
      exact deposit_nonneg
    · exact fit.le_bounds.2.1.trans (max_le deposit_nonneg le_rfl)
  obtain ⟨-, rfl⟩ | ⟨owed', used', rfl⟩ | ⟨owed', spare', ltv', power', payable', fit'⟩ := cases'
  · exact x_le_deposit.trans deposit_mono
  · -- what is at the limit now was at or above it before
    obtain ⟨none, -⟩ | ⟨-, -, rfl⟩ | ⟨-, spare, -⟩ := cases
    · exact absurd (le_antisymm (debt_anti.trans none.le) h.owed) owed'
    · exact le_rfl
    · linarith
  · obtain ⟨none, -⟩ | ⟨-, -, rfl⟩ | ⟨-, -, ltv, power, payable, fit⟩ := cases
    · exact absurd (le_antisymm (debt_anti.trans none.le) h.owed) owed'
    · rw [Decimal.toRat_zero]
      exact fit'.le_bounds.1
    · exact fit.le_of_relieved h unsigned listed there there' fit'

/-- Larger deposits and smaller debts never make the largest withdrawal smaller, whatever market
    it is asked of. -/
theorem maxWithdraw_mono {m : Market} (opened : m.Opened) (unsigned : m.Unsigned)
    {a a' : ObligationAccount} (less : a.Relieved a')
    (stored : ∀ s ∈ a.usedDeposits, 0 ≤ s.depositedAmount) {address : String}
    {cr br : Option RateMap}
    (exchange : ∀ s ∈ a.usedDeposits, ∀ r, m.reserveAt? s.reserve = some r → ∀ rate,
      rateOf cr r r.exchangeRate = .ok rate → 0 < rate.toRat)
    (owing : ∀ map, br = some map → ∀ rate ∈ map.values, 0 ≤ rate.toRat) {o o' : Obligation}
    (valued : value m address a cr br = .ok o) (valued' : value m address a' cr br = .ok o')
    {n : Market} (asked : n.Unsigned) {mint : String} {slot : ℤ} {x x' : Decimal}
    (h : o.maxWithdraw n mint slot = .ok x) (h' : o'.maxWithdraw n mint slot = .ok x') :
    x.toRat ≤ x'.toRat :=
  (relieved_of_values opened unsigned less stored exchange owing valued
    valued').largest_mono asked h h'

/-- Both changes let the sample borrower withdraw more. -/
theorem maxWithdraw_mono_sample : ∃ o o' x x',
    value Sample.market "obligation" Sample.withdrawn none none = .ok o ∧
    value Sample.market "obligation" Sample.repaid none none = .ok o' ∧
    o.maxWithdraw Sample.market "token" 1000 = .ok x ∧
    o'.maxWithdraw Sample.market "token" 1000 = .ok x' ∧
    0 < x.toRat ∧ x ≠ x' ∧ x.toRat ≤ x'.toRat := by
  obtain ⟨o, valued, computed⟩ := bind_eq_ok_iff.mp (show (value Sample.market "obligation"
    Sample.withdrawn none none >>= fun o => o.maxWithdraw Sample.market "token" 1000) =
      .ok ⟨false, 1715734679231279487179487179487179487178, -33⟩ by decide +kernel)
  obtain ⟨o', valued', computed'⟩ := bind_eq_ok_iff.mp (show (value Sample.market "obligation"
    Sample.repaid none none >>= fun o => o.maxWithdraw Sample.market "token" 1000) =
      .ok ⟨false, 2860623010000000000000001078781161623075, -33⟩ by decide +kernel)
  have opened : Sample.market.Opened := by decide +kernel
  have unsigned := revaluable_sample.unsigned
  have less : Sample.withdrawn.Relieved Sample.repaid :=
    ⟨rfl, .cons ⟨rfl, by decide⟩ (.cons ⟨rfl, by decide⟩ .nil), .cons ⟨rfl, by decide⟩ .nil⟩
  have exchange : ∀ s ∈ Sample.withdrawn.usedDeposits, ∀ r,
      Sample.market.reserveAt? s.reserve = some r → ∀ rate,
      rateOf none r r.exchangeRate = .ok rate → 0 < rate.toRat := by
    intro s used r there rate rated
    have listed := AddressMap.mem_values_of_find? there
    rw [List.mem_singleton.mp listed] at rated
    cases (show Sample.reserve.exchangeRate = .ok Sample.rate by decide +kernel).symm.trans rated
    decide +kernel
  exact ⟨o, o', _, _, valued, valued', computed, computed', by decide +kernel, by decide,
    maxWithdraw_mono opened unsigned less (by decide) exchange (fun _ none => by cases none)
      valued valued' unsigned computed computed'⟩

end Obligation

end Lending
