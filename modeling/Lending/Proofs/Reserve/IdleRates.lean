/-
  Lending.Proofs.Reserve.IdleRates — the rates after an action that moves nothing.

  Whatever the action, with nothing moved debt and supply keep their values
  (`ReserveRequest.Idle.after`); only a zero can come out with another sign. The three simulated
  rates go by those values alone, so they are the rates of the projected pool
  (`Reserve.rates_of_idle`): all actions that move nothing lead to the same ones, or fail alike
  (`Reserve.sameRates_of_idle`). Not after the last refresh the projected pool is the stored one,
  whose rates the reserve was opened with (`Reserve.keepsRates_of_idle`). The stored rates take
  curve and take rate from the settings and the simulated ones from the figures of the reserve,
  which were derived from the settings (`Reserve.borrowApr_eq`, `Reserve.exists_rates`).
-/
import Lending.Proofs.Reserve.Response

namespace Lending

open Outcome

/-! ## Requests -/

structure ReserveRequest.Idle (q : ReserveRequest) (action : Action) : Prop where
  resolved : q.action.resolve = .ok action
  amount : q.amount.toRat = 0
  outflow : action = .depositAndBorrow ∨ action = .repayAndWithdraw →
    ∃ x, q.outflow = some x ∧ x.toRat = 0

namespace DebtAndSupply

structure Same (d d' : DebtAndSupply) : Prop where
  debt : d.debt.toRat = d'.debt.toRat
  supply : d.supply.toRat = d'.supply.toRat

theorem Same.utilization {d d' : DebtAndSupply} (same : d.Same d') :
    SameValue d.utilization d'.utilization := by
  unfold DebtAndSupply.utilization
  rw [Decimal.isZero_congr same.supply]
  split
  · exact .refl _
  · exact div_sameValue same.debt same.supply

theorem utilization_result {d : DebtAndSupply} {u : Decimal} (h : d.utilization = .ok u) :
    u.Result := by
  unfold DebtAndSupply.utilization at h
  split at h
  · cases h
    exact Decimal.result_zero
  · exact div_result h

end DebtAndSupply

theorem ReserveRequest.Idle.after {q : ReserveRequest} {action : Action} (idle : q.Idle action)
    {e : DebtAndSupply} (debt : e.debt.Result) (supply : e.supply.Result) :
    ∃ d, e.after action q.amount q.outflow = .ok d ∧ d.Same e := by
  unfold DebtAndSupply.after
  cases action
  case deposit | mint =>
    obtain ⟨sum, added, same⟩ := supply.exists_add_zero idle.amount
    exact ⟨_, bind_eq_ok_iff.mpr ⟨sum, added, rfl⟩, rfl, same⟩
  case withdraw | redeem =>
    obtain ⟨left, taken, same⟩ := supply.exists_sub_zero idle.amount
    exact ⟨_, bind_eq_ok_iff.mpr ⟨left, taken, rfl⟩, rfl, same⟩
  case borrow =>
    obtain ⟨sum, added, same⟩ := debt.exists_add_zero idle.amount
    exact ⟨_, bind_eq_ok_iff.mpr ⟨sum, added, rfl⟩, same, rfl⟩
  case repay =>
    obtain ⟨left, taken, same⟩ := debt.exists_sub_zero idle.amount
    exact ⟨_, bind_eq_ok_iff.mpr ⟨left, taken, rfl⟩, same, rfl⟩
  case depositAndBorrow =>
    obtain ⟨x, given, none⟩ := idle.outflow (.inl rfl)
    obtain ⟨owed, lent, same_debt⟩ := debt.exists_add_zero none
    obtain ⟨sum, added, same_supply⟩ := supply.exists_add_zero idle.amount
    refine ⟨⟨owed, sum⟩, ?_, same_debt, same_supply⟩
    rw [given]
    simp only [bind_eq_ok_iff]
    exact ⟨x, rfl, owed, lent, sum, added, rfl⟩
  case repayAndWithdraw =>
    obtain ⟨x, given, none⟩ := idle.outflow (.inr rfl)
    obtain ⟨owed, repaid, same_debt⟩ := debt.exists_sub_zero idle.amount
    obtain ⟨left, taken, same_supply⟩ := supply.exists_sub_zero none
    refine ⟨⟨owed, left⟩, ?_, same_debt, same_supply⟩
    rw [given]
    simp only [bind_eq_ok_iff]
    exact ⟨owed, repaid, x, rfl, left, taken, rfl⟩

/-! ## Rates -/

namespace Reserve

def borrowAprFor (r : Reserve) (used : Outcome Decimal) : Outcome Decimal := do
  let rate ← r.stats.borrowCurve.rateAt (← used)
  rate * (← r.slotAdjustment)

def supplyAprFor (r : Reserve) (used : Outcome Decimal) : Outcome Decimal := do
  let utilization ← used
  let borrowApr ← r.borrowAprFor used
  let kept ← 1 - r.stats.protocolTakeRate
  (← utilization * borrowApr) * kept

def utilizationAt (r : Reserve) (slot referralFeeBps : ℤ) : Outcome Decimal :=
  r.debtAndSupplyAt slot referralFeeBps >>= DebtAndSupply.utilization

theorem borrowAprAfter_eq (r : Reserve) (q : ReserveRequest) :
    r.borrowAprAfter q = r.borrowAprFor (r.utilizationAfter q) := rfl

theorem supplyAprAfter_eq (r : Reserve) (q : ReserveRequest) :
    r.supplyAprAfter q = r.supplyAprFor (r.utilizationAfter q) := rfl

theorem utilizationAt_result {r : Reserve} {slot bps : ℤ} {u : Decimal}
    (h : r.utilizationAt slot bps = .ok u) : u.Result := by
  obtain ⟨e, -, used⟩ := bind_eq_ok_iff.mp h
  exact DebtAndSupply.utilization_result used

section
variable {r : Reserve} (opened : r.toPool.openReserve = .ok r) {used used' : Outcome Decimal}
  (same : SameValue used used') (result : ∀ u, used = .ok u → u.Result)
include opened same result

theorem borrowAprFor_sameValue : SameValue (r.borrowAprFor used) (r.borrowAprFor used') := by
  have points := RateCurve.results_ofControlPoints (Pool.borrowCurve_of_openReserve opened)
  unfold borrowAprFor
  refine .bind same fun u u' hu _ same_use =>
    .bind (RateCurve.rateAt_sameValue same_use (result u hu) points)
      fun rate rate' _ _ same_rate => .bind_same fun adjustment _ => ?_
  exact mul_sameValue same_rate rfl

theorem supplyAprFor_sameValue : SameValue (r.supplyAprFor used) (r.supplyAprFor used') := by
  unfold supplyAprFor
  refine .bind same fun u u' _ _ same_use =>
    .bind (borrowAprFor_sameValue opened same result) fun apr apr' _ _ same_apr =>
    .bind_same fun kept _ => .bind (mul_sameValue same_use same_apr) fun _ _ _ _ same_part => ?_
  exact mul_sameValue same_part rfl

end

theorem utilizationAfter_eq (r : Reserve) {q : ReserveRequest} {action : Action}
    (resolved : q.action.resolve = .ok action) :
    r.utilizationAfter q = r.debtAndSupplyAt q.slot q.referralFeeBps >>= fun e =>
      e.after action q.amount q.outflow >>= DebtAndSupply.utilization := by
  unfold Pool.utilizationAfter Pool.debtAndSupplyAfter
  rw [resolved]
  show (r.debtAndSupplyAt q.slot q.referralFeeBps >>= _) >>= _ = _
  rw [bind_assoc]

/-- With nothing moved the utilization is that of the projected pool. -/
theorem utilizationAfter_sameValue (r : Reserve) {q : ReserveRequest} {action : Action}
    (idle : q.Idle action) :
    SameValue (r.utilizationAt q.slot q.referralFeeBps) (r.utilizationAfter q) := by
  rw [utilizationAfter_eq r idle.resolved]
  refine .bind_same fun e estimate => ?_
  obtain ⟨debt, supply⟩ := Pool.debtAndSupplyAt_results estimate
  obtain ⟨d, after, same⟩ := idle.after debt supply
  rw [after]
  exact same.utilization.symm

/-- Two requests after which utilization, borrow rate and supply rate have the same values or end
    with the same faults. -/
structure SameRates (r : Reserve) (q q' : ReserveRequest) : Prop where
  utilization : SameValue (r.utilizationAfter q) (r.utilizationAfter q')
  borrowApr : SameValue (r.borrowAprAfter q) (r.borrowAprAfter q')
  supplyApr : SameValue (r.supplyAprAfter q) (r.supplyAprAfter q')

structure KeepsRates (r : Reserve) (q : ReserveRequest) : Prop where
  utilization : GiveSame r.utilization (r.utilizationAfter q)
  borrowApr : GiveSame r.borrowApr (r.borrowAprAfter q)
  supplyApr : GiveSame r.supplyApr (r.supplyAprAfter q)

section
variable {r : Reserve} (opened : r.toPool.openReserve = .ok r)
include opened

/-- Each rate after a request that moves nothing is the one at the projected utilization. -/
theorem rates_of_idle {q : ReserveRequest} {action : Action} (idle : q.Idle action) :
    SameValue (r.borrowAprFor (r.utilizationAt q.slot q.referralFeeBps)) (r.borrowAprAfter q) ∧
    SameValue (r.supplyAprFor (r.utilizationAt q.slot q.referralFeeBps)) (r.supplyAprAfter q) := by
  have same := utilizationAfter_sameValue r idle
  rw [borrowAprAfter_eq, supplyAprAfter_eq]
  exact ⟨borrowAprFor_sameValue opened same fun _ => utilizationAt_result,
    supplyAprFor_sameValue opened same fun _ => utilizationAt_result⟩

theorem sameRates_of_idle {q q' : ReserveRequest} {action action' : Action}
    (idle : q.Idle action) (idle' : q'.Idle action') (slot : q'.slot = q.slot)
    (fee : q'.referralFeeBps = q.referralFeeBps) : r.SameRates q q' := by
  have use := utilizationAfter_sameValue r idle'
  obtain ⟨borrow, supply⟩ := rates_of_idle opened idle
  obtain ⟨borrow', supply'⟩ := rates_of_idle opened idle'
  rw [slot, fee] at use borrow' supply'
  exact ⟨(utilizationAfter_sameValue r idle).symm.trans use, borrow.symm.trans borrow',
    supply.symm.trans supply'⟩

/-- The stored curve is the one of the settings. -/
theorem borrowApr_eq : r.borrowApr = r.borrowAprFor r.utilization := by
  unfold Pool.borrowApr
  rw [Pool.borrowCurve_of_openReserve opened]
  rfl

/-- The rates that a reserve was opened with; the supply rate takes the same steps in another
    order. -/
theorem exists_rates : ∃ u apr supplyApr, r.utilization = .ok u ∧ r.borrowApr = .ok apr ∧
    r.supplyApr = .ok supplyApr ∧ r.supplyApr = r.supplyAprFor r.utilization := by
  have derives := Pool.derives_of_openReserve opened
  obtain ⟨supplyApr, supplied, -⟩ := derives.supplyApy
  have parts := supplied
  unfold Pool.supplyApr at parts
  rw [derives.protocolTakeRate] at parts
  simp only [bind_eq_ok_iff] at parts
  obtain ⟨_, ⟨⟩, kept, hkept, u, hu, apr, hapr, part, hpart, total⟩ := parts
  refine ⟨u, apr, supplyApr, hu, hapr, supplied, supplied.trans (Eq.symm ?_)⟩
  unfold supplyAprFor
  rw [← borrowApr_eq opened]
  simp only [bind_eq_ok_iff]
  exact ⟨u, hu, apr, hapr, kept, hkept, part, hpart, total⟩

theorem utilizationAt_of_not_later {slot : ℤ} (not_later : slot ≤ r.account.lastUpdate.slot)
    (bps : ℤ) : r.utilizationAt slot bps = r.utilization := by
  obtain ⟨f⟩ := Pool.figures_of_openReserve opened
  unfold utilizationAt Pool.utilization
  rw [Pool.debtAndSupplyAt_of_not_later not_later f bps, f.totalSupply_eq, f.borrowed_eq]
  rfl

theorem keepsRates_of_idle {q : ReserveRequest} {action : Action} (idle : q.Idle action)
    (not_later : q.slot ≤ r.account.lastUpdate.slot) : r.KeepsRates q := by
  have use := utilizationAfter_sameValue r idle
  obtain ⟨borrow, supply⟩ := rates_of_idle opened idle
  obtain ⟨u, apr, supplyApr, hu, hapr, hsupplyApr, stored⟩ := exists_rates opened
  rw [utilizationAt_of_not_later opened not_later] at use borrow supply
  rw [← borrowApr_eq opened] at borrow
  rw [← stored] at supply
  exact ⟨use.giveSame hu, borrow.giveSame hapr, supply.giveSame hsupplyApr⟩

end

end Reserve

/-- Actions that move nothing leave the rates of an opened reserve as they are up to its last
    refresh, and at any slot they all lead to the same rates. -/
theorem idle_requests {p : Pool} {r : Reserve} (opened : p.openReserve = .ok r) :
    (∀ q action, q.Idle action → q.slot ≤ r.account.lastUpdate.slot → r.KeepsRates q) ∧
    ∀ q q' action action', q.Idle action → q'.Idle action' → q'.slot = q.slot →
      q'.referralFeeBps = q.referralFeeBps → r.SameRates q q' := by
  rw [← Pool.toPool_of_openReserve opened] at opened
  exact ⟨fun q action idle not_later => Reserve.keepsRates_of_idle opened idle not_later,
    fun q q' action action' idle idle' slot fee =>
      Reserve.sameRates_of_idle opened idle idle' slot fee⟩

open Sample in
/-- Two actions at the last refresh and two a thousand slots after it. -/
theorem idle_requests_sample :
    reserve.KeepsRates (sized "borrow" 0 none) ∧
    reserve.KeepsRates (sized "repayAndWithdraw" 0 (some 0)) ∧
    reserve.SameRates { sized "redeem" 0 none with slot := 2000 }
      { sized "depositAndBorrow" 0 (some 0) with slot := 2000 } := by
  obtain ⟨keep, agree⟩ := idle_requests Pool.opened_sample
  have zero : (0 : Decimal).toRat = 0 := Decimal.toRat_zero
  refine ⟨keep _ .borrow ⟨by decide, zero, by decide⟩ (by decide),
    keep _ .repayAndWithdraw ⟨by decide, zero, fun _ => ⟨0, rfl, zero⟩⟩ (by decide), ?_⟩
  exact agree _ _ .redeem .depositAndBorrow ⟨by decide, zero, by decide⟩
    ⟨by decide, zero, fun _ => ⟨0, rfl, zero⟩⟩ rfl rfl

end Lending
