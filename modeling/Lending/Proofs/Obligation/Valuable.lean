/-
  Lending.Proofs.Obligation.Valuable — when an account can be valued, and how valuing it fails.

  Short of an overflow three things decide: the reserves of the account are on the market, its
  group is configured if it has deposits, and no debt was recorded at a rate of zero. They are
  met in this order (`valueAsOf_ends`). Beside them a slot needs its reserve's rate, which the
  loader enters for every used slot, and a rate to divide by that is not zero, as no exchange
  rate is.
-/
import Lending.Fault.Message
import Lending.Proofs.Obligation.Missing

namespace Lending

open Outcome

/-! ## What valuing needs -/

structure ObligationAccount.Unsigned (a : ObligationAccount) : Prop where
  borrowed : ∀ s ∈ a.usedBorrows, 0 ≤ s.rawBorrowed
  limbs : ∀ s ∈ a.usedBorrows, ∀ limb ∈ s.cumulativeBorrowRateLimbs, 0 ≤ limb

def Market.Groups (m : Market) (a : ObligationAccount) : Prop :=
  a.elevationGroup = 0 ∨ (∃ g, m.elevationGroup a.elevationGroup = .ok g) ∨ a.usedDeposits = []

def ObligationAccount.Indexed (a : ObligationAccount) : Prop :=
  ∀ s ∈ a.usedBorrows, ScaledFraction.ofLimbs s.cumulativeBorrowRateLimbs ≠ 0

structure Valuable (m : Market) (a : ObligationAccount) : Prop where
  listed : ∀ reserve ∈ a.reserves, ∃ r, m.reserveAt? reserve = some r
  grouped : m.Groups a
  indexed : a.Indexed

section
variable {m : Market} {a : ObligationAccount} {group : ℤ}

theorem Market.collateralTerms_overflowOnly
    (configured : group = 0 ∨ ∃ g, m.elevationGroup group = .ok g) (r : Reserve) :
    (m.collateralTerms group r).OverflowOnly := by
  have percent (n : ℤ) : (Decimal.ofInt n / (100 : Decimal) : Outcome Decimal).OverflowOnly :=
    shareOfPercent_overflowOnly n
  unfold collateralTerms
  split
  · exact .pure _
  · rename_i grouped
    obtain ⟨g, given⟩ := configured.resolve_left grouped
    exact .bind (.of_eq given) fun _ _ => .bind (percent _) fun _ _ =>
      .bind (percent _) fun _ _ => .pure _

theorem Market.collateralTerms_of_not_configured (grouped : group ≠ 0)
    (none : ¬ ∃ g, m.elevationGroup group = .ok g) (r : Reserve) :
    m.collateralTerms group r = .error (.groupNotConfigured group m.address) := by
  have missing : m.elevationGroup group = .error (.groupNotConfigured group m.address) := by
    unfold elevationGroup at none ⊢
    generalize (if group < 1 then Option.none
      else m.account.elevationGroups[(group - 1).toNat]?) = found at none ⊢
    cases found with
    | none => rfl
    | some g => exact absurd ⟨g, rfl⟩ none
  unfold collateralTerms
  rw [if_neg grouped, missing]
  rfl

theorem ObligationAccount.mem_reserves_of_deposit {s : CollateralSlot} (used : s ∈ a.usedDeposits) :
    s.reserve ∈ a.reserves :=
  List.mem_eraseDups.mpr (List.mem_append_left _ (List.mem_map_of_mem used))

theorem ObligationAccount.mem_reserves_of_borrow {s : DebtSlot} (used : s ∈ a.usedBorrows) :
    s.reserve ∈ a.reserves :=
  List.mem_eraseDups.mpr (List.mem_append_right _ (List.mem_map_of_mem used))

end

/-! ## Valuing with the rates of a point in time -/

namespace Obligation

section
variable {m : Market} {a : ObligationAccount} {address : String} {cr br : Option RateMap}
  (listed : ∀ reserve ∈ a.reserves, ∃ r, m.reserveAt? reserve = some r)
include listed

theorem value_of_ungrouped (ungrouped : ¬ m.Groups a) (address : String) :
    value m address a cr br = .error (.groupNotConfigured a.elevationGroup m.address) := by
  obtain ⟨grouped, none, some⟩ : a.elevationGroup ≠ 0 ∧
      (¬ ∃ g, m.elevationGroup a.elevationGroup = .ok g) ∧ a.usedDeposits ≠ [] := by
    simpa only [Market.Groups, not_or] using ungrouped
  obtain ⟨s, rest, held⟩ := List.exists_cons_of_ne_nil some
  have used : s ∈ a.usedDeposits := held ▸ List.mem_cons_self
  obtain ⟨r, found⟩ := listed _ (a.mem_reserves_of_deposit used)
  -- the first deposit already asks for the terms of the group
  have deposits : m.valueDeposits a cr =
      .error (.groupNotConfigured a.elevationGroup m.address) := by
    have on : s.reserveIn m = .ok r := ofOption_eq_ok_iff.mpr found
    unfold Market.valueDeposits DepositTotals.addSlot
    rw [held, List.foldlM_cons, on]
    show (m.collateralTerms _ r >>= _) >>= _ >>= _ = _
    rw [Market.collateralTerms_of_not_configured grouped none r]
    rfl
  obtain ⟨groups, given⟩ := Market.exists_potentialGroups listed
  unfold value
  rw [given]
  show m.valueDeposits a cr >>= _ = _
  rw [deposits]
  rfl

variable (opened : m.Opened) (unsigned : m.UnsignedIndexes) {time : Option ℤ}
  (rates : RatesAsOf m a time cr br) (stored : a.Unsigned) (grouped : m.Groups a)
include opened unsigned rates stored grouped

/-- Then only dividing by a recorded rate can fail other than by an overflow. -/
theorem value_faultsIn_of_grouped {P : Fault → Prop} (overflow : P .overflow)
    (divides : ∀ s ∈ a.usedBorrows, ∀ c, s.cumulativeBorrowRate = .ok c →
      ∀ x : Decimal, (x / c : Outcome Decimal).FaultsIn P) :
    (value m address a cr br).FaultsIn P := by
  refine value_faultsIn overflow listed
    (Market.valueDeposits_faultsIn overflow fun s used => ?_)
    (Market.valueBorrows_faultsIn overflow fun s used => ?_)
  · obtain ⟨r, found⟩ := listed _ (a.mem_reserves_of_deposit used)
    have own := rates.collateral s used r found
    obtain ⟨f⟩ := Pool.figures_of_openReserve (opened.openReserve found)
    obtain ⟨factor, factor_eq, factor_ne⟩ :=
      Pool.exists_mintFactor_of_openReserve (opened.openReserve found)
    have configured : a.elevationGroup = 0 ∨ ∃ g, m.elevationGroup a.elevationGroup = .ok g :=
      grouped.imp_right fun h => h.resolve_right (List.ne_nil_of_mem used)
    refine s.valued_faultsIn overflow found
      ((Market.collateralTerms_overflowOnly configured r).faultsIn overflow) ?_ ?_
      factor_eq factor_ne
    · rw [own]
      exact (Pool.exchangeRateAsOf_overflowOnly f _ time).faultsIn overflow
    · rw [own]
      exact fun rate given => Pool.exchangeRateAsOf_ne_zero given
  · obtain ⟨r, found⟩ := listed _ (a.mem_reserves_of_borrow used)
    obtain ⟨f⟩ := Pool.figures_of_openReserve (opened.openReserve found)
    obtain ⟨factor, factor_eq, factor_ne⟩ :=
      Pool.exists_mintFactor_of_openReserve (opened.openReserve found)
    have limbs := unsigned r (AddressMap.mem_values_of_find? found)
    refine s.valued_faultsIn overflow (stored.borrowed s used) found
      ((r.debtWeight_overflowOnly _).faultsIn overflow) ?_
      ((ScaledFraction.decodeLimbs_overflowOnly (stored.limbs s used)).faultsIn overflow)
      (divides s used) factor_eq factor_ne
    rw [rates.borrow s used r found]
    exact (Pool.cumulativeBorrowRateAsOf_overflowOnly f limbs time).faultsIn overflow

theorem value_overflowOnly_of_indexed (indexed : a.Indexed) :
    (value m address a cr br).OverflowOnly := by
  refine value_faultsIn_of_grouped listed opened unsigned rates stored grouped rfl ?_
  exact fun s used c given x =>
    div_overflowOnly x (mt (ScaledFraction.toRat_eq_zero_iff given).mp (indexed s used))

end

theorem indexed_of_value {m : Market} {a : ObligationAccount} {address : String}
    {cr br : Option RateMap} {o : Obligation} (h : value m address a cr br = .ok o) :
    a.Indexed := by
  obtain ⟨-, ds, bs, -, hbs, -⟩ := value_sums h
  intro s used
  obtain ⟨v, valued⟩ := exists_mapM_eq_ok_iff.mp ⟨bs, hbs⟩ s used
  obtain ⟨r, rate, recordedRate, factor, worth⟩ := s.worth valued
  exact mt (ScaledFraction.toRat_eq_zero_iff worth.recordedRate_eq).mpr
    (s.recordedRate_ne_zero valued worth.recordedRate_eq)

/-- What was valued could be. -/
theorem valuable_of_value {m : Market} {a : ObligationAccount} {address : String}
    {cr br : Option RateMap} {o : Obligation} (h : value m address a cr br = .ok o) :
    Valuable m a := by
  obtain ⟨groups, given, -⟩ := bind_eq_ok_iff.mp h
  obtain ⟨reserves, found, -⟩ := bind_eq_ok_iff.mp given
  have listed : ∀ reserve ∈ a.reserves, ∃ r, m.reserveAt? reserve = some r := fun reserve used =>
    (exists_mapM_eq_ok_iff.mp ⟨reserves, found⟩ reserve used).imp fun r there =>
      ofOption_eq_ok_iff.mp there
  refine ⟨listed, ?_, indexed_of_value h⟩
  by_contra ungrouped
  cases h.symm.trans (value_of_ungrouped listed ungrouped address)

/-! ## As of the last refresh, or at a slot -/

/-- How valuing an account as of a point in time ends. -/
structure ValueEnds (m : Market) (address : String) (a : ObligationAccount) (time : Option ℤ) :
    Prop where
  ok_iff : (∃ o, valueAsOf m address a time = .ok o) ↔ Valuable m a
  missing : ∀ x, m.firstMissing? a = some x → ∃ fault,
    valueAsOf m address a time = .error fault ∧ fault = .reserveNotOnMarket x m.address ∧
      fault.message = "Reserve " ++ x ++ " not found on market " ++ m.address
  ungrouped : m.firstMissing? a = none → ¬ m.Groups a →
    valueAsOf m address a time = .error (.groupNotConfigured a.elevationGroup m.address)
  unindexed : m.firstMissing? a = none → m.Groups a → ¬ a.Indexed →
    valueAsOf m address a time = .error .divisionByZero ∨
      valueAsOf m address a time = .error .invalidOperation
  /-- No rate is missing, and no slot meets a reserve that is. -/
  unreachable : ∀ fault, valueAsOf m address a time = .error fault →
    ∀ reserve market amount rawDebt, fault ≠ .rateMissing reserve ∧
      fault ≠ .depositNotOnMarket reserve market amount ∧
      fault ≠ .borrowNotOnMarket reserve market rawDebt
  rate_ne_zero : ∀ s ∈ a.usedDeposits, ∀ r, m.reserveAt? s.reserve = some r →
    ∀ rate, r.exchangeRateAsOf m.referralFeeBps time = .ok rate → rate.toRat ≠ 0

section
variable {m : Market} {a : ObligationAccount} {address : String} {time : Option ℤ}
  (keyed : m.Keyed) (opened : m.Opened) (unsigned : m.UnsignedIndexes) (stored : a.Unsigned)
  (fits : valueAsOf m address a time ≠ .error .overflow)
include keyed opened unsigned fits

theorem valueAsOf_of_ungrouped (listed : m.firstMissing? a = none) (ungrouped : ¬ m.Groups a) :
    valueAsOf m address a time = .error (.groupNotConfigured a.elevationGroup m.address) := by
  obtain ⟨cr, br, -, same⟩ := exists_rates_of_listed opened unsigned fits keyed listed
  rw [same]
  exact value_of_ungrouped (Market.firstMissing?_eq_none_iff.mp listed) ungrouped address

include stored

theorem valueAsOf_of_unindexed (listed : m.firstMissing? a = none) (grouped : m.Groups a)
    (unindexed : ¬ a.Indexed) : valueAsOf m address a time = .error .divisionByZero ∨
      valueAsOf m address a time = .error .invalidOperation := by
  obtain ⟨cr, br, rates, same⟩ := exists_rates_of_listed opened unsigned fits keyed listed
  rw [same] at fits ⊢
  cases valued : value m address a cr br with
  | ok o => exact absurd (indexed_of_value valued) unindexed
  | error fault =>
    rcases value_faultsIn_of_grouped (Market.firstMissing?_eq_none_iff.mp listed) opened unsigned
      rates stored grouped (.inl rfl) (fun _ _ c _ x => div_faults x c) fault valued
      with rfl | rfl | rfl
    · exact absurd valued fits
    · exact .inl rfl
    · exact .inr rfl

theorem exists_valueAsOf_of_valuable (fit : Valuable m a) :
    ∃ o, valueAsOf m address a time = .ok o := by
  obtain ⟨cr, br, rates, same⟩ := exists_rates_of_listed opened unsigned fits keyed
    (Market.firstMissing?_eq_none_iff.mpr fit.listed)
  rw [same] at fits ⊢
  cases valued : value m address a cr br with
  | ok o => exact ⟨o, rfl⟩
  | error fault =>
    cases value_overflowOnly_of_indexed fit.listed opened unsigned rates stored fit.grouped
      fit.indexed fault valued
    exact absurd valued fits

/-- No other fault than these is met. -/
theorem reason_of_error {fault : Fault} (failed : valueAsOf m address a time = .error fault) :
    (∃ x, fault = .reserveNotOnMarket x m.address) ∨
      fault = .groupNotConfigured a.elevationGroup m.address ∨ fault = .divisionByZero ∨
      fault = .invalidOperation := by
  have same {other : Fault} (h : valueAsOf m address a time = .error other) : fault = other :=
    Except.error.inj (failed.symm.trans h)
  cases first : m.firstMissing? a with
  | some x => exact .inl ⟨x, same (valueAsOf_of_missing opened unsigned fits first)⟩
  | none =>
    by_cases grouped : m.Groups a
    · by_cases indexed : a.Indexed
      · obtain ⟨o, valued⟩ := exists_valueAsOf_of_valuable keyed opened unsigned stored fits
          ⟨Market.firstMissing?_eq_none_iff.mp first, grouped, indexed⟩
        cases failed.symm.trans valued
      · exact .inr (.inr ((valueAsOf_of_unindexed keyed opened unsigned stored fits first grouped
          indexed).imp same same))
    · exact .inr (.inl (same (valueAsOf_of_ungrouped keyed opened unsigned fits first grouped)))

end

end Obligation

end Lending
