/-
  Lending.Proofs.Obligation.Settled — figures that are worked out already.

  The totals of a valued obligation are results of additions, and its ratios are what working
  them out anew gives (`Valued.settled`). The positions of a side stand under their reserves, and
  their figures are kept as they are (`Valued.filed`). From totals of the same values come ratios
  of the same values (`SameTotals.refresh`).
-/
import Lending.Proofs.Decimal.Normal
import Lending.Proofs.Obligation.Headroom
import Lending.Proofs.Obligation.Interleaving
import Lending.Proofs.Obligation.Targets

namespace Lending

open Outcome Truncation

/-! ## Figures -/

structure Figure (x : ℚ) : Prop where
  exact : Representable x
  nonneg : 0 ≤ x

theorem figure_zero : Figure 0 := ⟨representable_zero, le_rfl⟩

theorem figure_moved (before change : ℚ) : Figure (moved before change) :=
  ⟨representable_moved _ _, moved_nonneg _ _⟩

theorem Figure.moved_zero {x : ℚ} (h : Figure x) : moved x 0 = x := by
  unfold moved
  rw [add_zero, h.exact.truncate_eq, max_eq_left h.nonneg]

/-! ## Positions -/

structure Filed (positions : AddressMap Position) : Prop where
  distinct : positions.addresses.Nodup
  keyed : ∀ entry ∈ positions.entries, entry.2.reserve = entry.1
  figures : ∀ p ∈ positions.values, Figure p.amount.toRat ∧ Figure p.value.toRat

/-- The reserve that a market has for a token holds no position in another token. -/
def Market.Recognizes (m : Market) (positions : AddressMap Position) (mint : String) : Prop :=
  ∀ r p, m.reserveOfMint mint = .ok r → positions.find? r.address = some p → p.mint = mint

theorem Market.Places.recognizes {m : Market} {positions : AddressMap Position}
    (places : m.Places positions) (keyed : m.Keyed) (distinct : m.reserves.addresses.Nodup)
    (own : ∀ entry ∈ positions.entries, entry.2.reserve = entry.1) (mint : String) :
    m.Recognizes positions mint := by
  intro r p found there
  obtain ⟨listed, same⟩ := Market.mint_of_reserveOfMint found
  have entered := AddressMap.mem_of_find? there
  obtain ⟨other, at_its, token⟩ := places p (List.mem_map_of_mem entered)
  rw [own _ entered] at at_its
  cases at_its.symm.trans (keyed.reserveAt_address distinct listed)
  exact token.trans same

theorem Position.ofMint_mint (positions : AddressMap Position) (r : Reserve) (mint : String) :
    (Position.ofMint positions r mint).mint = mint := by
  unfold ofMint
  cases search : positions.values.reverse.find? (·.mint == mint) with
  | some p => simpa using List.find?_some search
  | none => rfl

namespace Filed

variable {before after : AddressMap Position} (filed : Filed before) {m : Market} {r : Reserve}
  {mint : String}
include filed

/-- The position of a token stands under its reserve, or is empty and new there. -/
theorem ofMint_cases (recognized : m.Recognizes before mint)
    (found : m.reserveOfMint mint = .ok r) :
    before.find? (Position.ofMint before r mint).reserve = some (Position.ofMint before r mint) ∨
      Position.ofMint before r mint = ⟨r.address, mint, 0, 0⟩ ∧ before.find? r.address = none := by
  rcases Position.ofMint_cases filed.distinct filed.keyed r mint with known | ⟨new, without⟩
  · exact .inl known
  · refine .inr ⟨new, ?_⟩
    cases taken : before.find? r.address with
    | none => rfl
    | some p =>
      exact absurd (recognized r p found taken) (without p (AddressMap.mem_values_of_find? taken))

theorem ofMint_figures (r : Reserve) (mint : String) :
    Figure (Position.ofMint before r mint).amount.toRat ∧
      Figure (Position.ofMint before r mint).value.toRat := by
  rcases Position.ofMint_cases filed.distinct filed.keyed r mint with known | ⟨new, -⟩
  · exact filed.figures _ (AddressMap.mem_values_of_find? known)
  · rw [new]
    exact ⟨Decimal.toRat_zero ▸ figure_zero, Decimal.toRat_zero ▸ figure_zero⟩

theorem step {amount value : Decimal} {changed : Position}
    (change : PositionStep before after r mint amount value changed) : Filed after := by
  refine ⟨change.distinct filed.distinct, change.keyed filed.keyed, fun p listed => ?_⟩
  rcases change.mem_values listed with rfl | old
  · rw [change.amount_eq, change.value_eq]
    exact ⟨figure_moved _ _, figure_moved _ _⟩
  · exact filed.figures p old

end Filed

structure Position.Same (p p' : Position) : Prop where
  reserve : p.reserve = p'.reserve
  mint : p.mint = p'.mint
  amount : p.amount.toRat = p'.amount.toRat
  value : p.value.toRat = p'.value.toRat

structure Position.Empty (p : Position) (address : String) : Prop where
  reserve : p.reserve = address
  amount : p.amount.toRat = 0
  value : p.value.toRat = 0

/-! ## Totals -/

namespace ObligationStats

/-- Totals that were worked out, with the ratios that come of them. -/
structure Settled (s : ObligationStats) : Prop where
  totalDeposit : s.totalDeposit.Result
  totalBorrow : s.totalBorrow.Result
  weightedBorrow : s.weightedBorrow.Result
  borrowLimit : s.borrowLimit.Result
  liquidationLimit : s.liquidationLimit.Result
  liquidationLtv : Decimal.ratioOrZero s.liquidationLimit s.totalDeposit = .ok s.liquidationLtv
  refreshed : s.refresh = .ok s

structure SameTotals (s s' : ObligationStats) : Prop where
  totalDeposit : s.totalDeposit.toRat = s'.totalDeposit.toRat
  totalBorrow : s.totalBorrow.toRat = s'.totalBorrow.toRat
  weightedBorrow : s.weightedBorrow.toRat = s'.weightedBorrow.toRat
  borrowLimit : s.borrowLimit.toRat = s'.borrowLimit.toRat
  liquidationLimit : s.liquidationLimit.toRat = s'.liquidationLimit.toRat
  liquidationLtv : s.liquidationLtv.toRat = s'.liquidationLtv.toRat
  potentialGroups : s.potentialGroups = s'.potentialGroups

structure Same (s s' : ObligationStats) : Prop extends SameTotals s s' where
  netValue : s.netValue.toRat = s'.netValue.toRat
  loanToValue : s.loanToValue.toRat = s'.loanToValue.toRat
  leverage : s.leverage.toRat = s'.leverage.toRat
  borrowUtilization : s.borrowUtilization.toRat = s'.borrowUtilization.toRat

/-- Totals of the same values lead to ratios of the same values. -/
theorem SameTotals.refresh {s s' t : ObligationStats} (same : s.SameTotals s')
    (settled : s.Settled) (h : s.refresh = .ok t) : ∃ t', s'.refresh = .ok t' ∧ t.Same t' := by
  unfold ObligationStats.refresh at h
  simp only [bind_eq_ok_iff] at h
  obtain ⟨net, hnet, ltv, hltv, leverage, hleverage, utilization, hutilization, h⟩ := h
  cases h
  obtain ⟨net', hnet', same_net⟩ := exists_sub_congr same.totalDeposit same.totalBorrow
    settled.totalDeposit.size settled.totalBorrow.size hnet
  obtain ⟨ltv', hltv', same_ltv⟩ :=
    exists_ratioOrZero_congr same.weightedBorrow same.totalDeposit hltv
  obtain ⟨leverage', hleverage', same_leverage⟩ :=
    exists_ratioOrZero_congr same.totalDeposit same_net hleverage
  obtain ⟨utilization', hutilization', same_utilization⟩ :=
    exists_ratioOrZero_congr same.weightedBorrow same.borrowLimit hutilization
  refine ⟨{ s' with
    netValue := net', loanToValue := ltv', leverage := leverage',
    borrowUtilization := utilization' }, ?_, ?_⟩
  · unfold ObligationStats.refresh
    simp only [bind_eq_ok_iff]
    exact ⟨net', hnet', ltv', hltv', leverage', hleverage', utilization', hutilization', rfl⟩
  · exact ⟨⟨same.totalDeposit, same.totalBorrow, same.weightedBorrow, same.borrowLimit,
      same.liquidationLimit, same.liquidationLtv, same.potentialGroups⟩, same_net, same_ltv,
      same_leverage, same_utilization⟩

end ObligationStats

/-! ## Valued obligations -/

theorem DepositTotals.addValue_results {t next : DepositTotals} {terms : CollateralTerms}
    {p : Position} (h : t.addValue terms p = .ok next) :
    next.total.Result ∧ next.borrowLimit.Result ∧ next.liquidationLimit.Result := by
  rw [addValue_eq] at h
  simp only [bind_eq_ok_iff] at h
  obtain ⟨total, htotal, _, -, _, -, limit, hlimit, _, -, liquidation, hliquidation, h⟩ := h
  cases h
  exact ⟨add_result htotal, add_result hlimit, add_result hliquidation⟩

theorem Market.valueDeposits_results {m : Market} {a : ObligationAccount}
    {rates : Option RateMap} {d : DepositStats} (h : m.valueDeposits a rates = .ok d) :
    (d.total.Result ∧ d.borrowLimit.Result ∧ d.liquidationLimit.Result) ∧
      Decimal.ratioOrZero d.liquidationLimit d.total = .ok d.liquidationLtv := by
  obtain ⟨t, run, h⟩ := bind_eq_ok_iff.mp h
  obtain ⟨ltv, ratio, h⟩ := bind_eq_ok_iff.mp h
  cases h
  refine ⟨?_, ratio⟩
  refine foldlM_invariant (P := fun t : DepositTotals =>
    t.total.Result ∧ t.borrowLimit.Result ∧ t.liquidationLimit.Result) ?_
    ⟨Decimal.result_zero, Decimal.result_zero, Decimal.result_zero⟩ run
  intro t slot next _ added
  rw [DepositTotals.addSlot_eq] at added
  obtain ⟨v, -, added⟩ := bind_eq_ok_iff.mp added
  exact DepositTotals.addValue_results added

theorem Market.valueBorrows_results {m : Market} {a : ObligationAccount} {rates : Option RateMap}
    {b : BorrowStats} (h : m.valueBorrows a rates = .ok b) :
    b.total.Result ∧ b.weighted.Result := by
  refine foldlM_invariant (P := fun t : BorrowStats => t.total.Result ∧ t.weighted.Result) ?_
    ⟨Decimal.result_zero, Decimal.result_zero⟩ h
  intro t slot next _ added
  rw [BorrowStats.addSlot_eq] at added
  obtain ⟨v, -, added⟩ := bind_eq_ok_iff.mp added
  unfold BorrowStats.addValue at added
  simp only [bind_eq_ok_iff] at added
  obtain ⟨total, htotal, _, -, weighted, hweighted, added⟩ := added
  cases added
  exact ⟨add_result htotal, add_result hweighted⟩

/-- The positions of valued slots. -/
theorem filed_positionMap {σ τ : Type} {f : σ → Outcome (τ × Position)} {slots : List σ}
    {vs : List (τ × Position)} (valued : slots.mapM f = .ok vs)
    (exact : ∀ s v, f s = .ok v →
      Representable v.2.amount.toRat ∧ Representable v.2.value.toRat)
    (nonneg : ∀ p ∈ (positionMap (vs.map (·.2))).values, 0 ≤ p.amount.toRat ∧ 0 ≤ p.value.toRat) :
    Filed (positionMap (vs.map (·.2))) := by
  refine ⟨AddressMap.nodup_addresses_ofList _, fun entry entered => (mem_positionMap entered).1,
    fun p listed => ?_⟩
  obtain ⟨v, entry, rfl⟩ := List.mem_map.mp (mem_of_mem_positionMap listed)
  obtain ⟨s, -, worked_out⟩ := exists_of_mem_mapM valued entry
  obtain ⟨amount, value⟩ := exact s v worked_out
  obtain ⟨amount_nonneg, value_nonneg⟩ := nonneg _ listed
  exact ⟨⟨amount, amount_nonneg⟩, value, value_nonneg⟩

theorem places_positionMap {m : Market} {σ τ : Type} {reserve : σ → String}
    {f : σ → Outcome (τ × Position)} {slots : List σ} {vs : List (τ × Position)}
    (keyed : m.Keyed) (placed : PlacedIn m reserve f) (valued : slots.mapM f = .ok vs) :
    m.Places (positionMap (vs.map (·.2))) := by
  intro p listed
  obtain ⟨v, entry, rfl⟩ := List.mem_map.mp (mem_of_mem_positionMap listed)
  obtain ⟨s, -, worked_out⟩ := exists_of_mem_mapM valued entry
  obtain ⟨r, found, -, token⟩ := placed s v worked_out
  exact ⟨r, placed.reserve_eq keyed worked_out ▸ found, token⟩

namespace Obligation

/-- An obligation's own market places its positions. -/
theorem places_of_value {m : Market} {cr br : Option RateMap} {o : Obligation} (keyed : m.Keyed)
    (valued : value m o.address o.account cr br = .ok o) (side : Side) :
    m.Places (o.scenario.positions side) := by
  obtain ⟨-, ds, bs, hds, hbs, sums⟩ := value_sums valued
  cases side with
  | deposits =>
    simp only [scenario, Scenario.positions, sums.deposits]
    exact places_positionMap keyed (placedIn_collateral m _ cr) hds
  | borrows =>
    simp only [scenario, Scenario.positions, sums.borrows]
    exact places_positionMap keyed (placedIn_debt m _ br) hbs

variable {o : Obligation} (valued : o.Valued)
include valued

theorem Valued.settled : o.stats.Settled := by
  obtain ⟨m, cr, br, valued⟩ := valued
  unfold value at valued
  simp only [bind_eq_ok_iff] at valued
  obtain ⟨groups, -, d, hd, b, hb, net, hnet, utilization, hutilization, ltv, hltv, leverage,
    hleverage, same⟩ := valued
  obtain ⟨⟨total, limit, liquidation⟩, ratio⟩ := Market.valueDeposits_results hd
  obtain ⟨owed, weighted⟩ := Market.valueBorrows_results hb
  rw [← Except.ok.inj same]
  refine ⟨total, owed, weighted, limit, liquidation, ratio, ?_⟩
  unfold ObligationStats.refresh
  simp only [bind_eq_ok_iff]
  exact ⟨net, hnet, ltv, hltv, leverage, hleverage, utilization, hutilization, rfl⟩

theorem Valued.filed (unsigned : o.scenario.Unsigned) (side : Side) :
    Filed (o.scenario.positions side) := by
  obtain ⟨m, cr, br, valued⟩ := valued
  obtain ⟨-, ds, bs, hds, hbs, sums⟩ := value_sums valued
  have nonneg := unsigned.positions side
  cases side with
  | deposits =>
    simp only [scenario, Scenario.positions, sums.deposits] at nonneg ⊢
    exact filed_positionMap hds (fun _ _ h => ⟨CollateralSlot.representable_amount h,
      CollateralSlot.representable_value h⟩) nonneg
  | borrows =>
    simp only [scenario, Scenario.positions, sums.borrows] at nonneg ⊢
    exact filed_positionMap hbs (fun _ _ h => ⟨DebtSlot.representable_amount h,
      DebtSlot.representable_value h⟩) nonneg

end Obligation

end Lending
