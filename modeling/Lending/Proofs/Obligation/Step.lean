/-
  Lending.Proofs.Obligation.Step — what one leg does to a scenario.

  All that a leg did that could be done, said once for each side (`addDeposit_step`,
  `addBorrow_step`). The position of the token changes, and each total of the side moves by its
  part of the value; all of them are cut and do not fall below zero. The other side stays as it
  is. A leg adds its signed amount to its side (`addLeg_eq`).
-/
import Lending.Obligation.Scenario
import Lending.Proofs.Decimal.Arithmetic
import Lending.Proofs.Outcome

namespace Lending

open Outcome Truncation

inductive Side where
  | deposits
  | borrows
  deriving DecidableEq, Repr

def LegKind.side : LegKind → Side
  | .deposit | .withdraw => .deposits
  | .borrow | .repay => .borrows

def Leg.signed (leg : Leg) : Outcome Decimal :=
  match leg.kind with
  | .deposit | .borrow => pure leg.amount
  | .withdraw | .repay => leg.amount.negated

namespace Scenario

def positions (s : Scenario) : Side → AddressMap Position
  | .deposits => s.deposits
  | .borrows => s.borrows

def total (s : Scenario) : Side → Decimal
  | .deposits => s.stats.totalDeposit
  | .borrows => s.stats.totalBorrow

end Scenario

/-- A figure after a change, cut and not below zero. -/
def moved (before change : ℚ) : ℚ := max (truncate (before + change)) 0

theorem moved_nonneg (before change : ℚ) : 0 ≤ moved before change := le_max_right _ _

/-- The floor does nothing to a sum that is not negative. -/
theorem moved_of_nonneg {before change : ℚ} (nonneg : 0 ≤ before + change) :
    moved before change = truncate (before + change) := max_eq_left (truncate_nonneg nonneg)

theorem representable_moved (before change : ℚ) : Representable (moved before change) := by
  unfold moved
  rcases le_total (truncate (before + change)) 0 with low | high
  · rw [max_eq_right low]
    exact representable_zero
  · rw [max_eq_left high]
    exact representable_truncate _

theorem toRat_moved {x y sum : Decimal} (h : (x + y : Outcome Decimal) = .ok sum) :
    sum.positiveOrZero.toRat = moved x.toRat y.toRat := by
  rw [Decimal.toRat_positiveOrZero, add_value h]
  rfl

structure PositionStep (before after : AddressMap Position) (r : Reserve) (mint : String)
    (amount value : Decimal) (changed : Position) : Prop where
  entered : after = before.insert (Position.ofMint before r mint).reserve changed
  reserve_eq : changed.reserve = (Position.ofMint before r mint).reserve
  mint_eq : changed.mint = (Position.ofMint before r mint).mint
  amount_eq : changed.amount.toRat =
    moved (Position.ofMint before r mint).amount.toRat amount.toRat
  value_eq : changed.value.toRat = moved (Position.ofMint before r mint).value.toRat value.toRat

theorem Position.add_step {before : AddressMap Position} {r : Reserve} {mint : String}
    {amount value : Decimal} {changed : Position}
    (h : (Position.ofMint before r mint).add amount value = .ok changed) :
    PositionStep before (before.insert (Position.ofMint before r mint).reserve changed) r mint
      amount value changed := by
  unfold Position.add at h
  simp only [bind_eq_ok_iff] at h
  obtain ⟨newAmount, hamount, newValue, hvalue, h⟩ := h
  cases h
  exact ⟨rfl, rfl, rfl, toRat_moved hamount, toRat_moved hvalue⟩

namespace Obligation

def Admits (o : Obligation) (r : Reserve) : Prop :=
  o.elevationGroup = 0 ∨ r.elevationGroups.contains o.elevationGroup

theorem admits_of_requireGroup {o : Obligation} {r : Reserve} {purpose : String}
    (h : o.requireGroup r purpose = .ok ()) : o.Admits r := by
  unfold requireGroup at h
  split at h
  · cases h
  · rename_i allowed
    by_cases none : o.elevationGroup = 0
    · exact .inl none
    · refine .inr ?_
      by_contra outside
      exact allowed ⟨none, outside⟩

/-! ## Deposits -/

structure DepositStep (o : Obligation) (m : Market) (s s' : Scenario) (amount : Decimal)
    (mint : String) (r : Reserve) (terms : CollateralTerms) (value : Decimal)
    (changed : Position) : Prop where
  reserve_eq : m.reserveOfMint mint = .ok r
  terms_eq : m.collateralTerms o.elevationGroup r = .ok terms
  admitted : o.Admits r
  value_eq : r.valueOf amount = .ok value
  position : PositionStep s.deposits s'.deposits r mint amount value changed
  totalDeposit : s'.stats.totalDeposit.toRat = moved s.stats.totalDeposit.toRat value.toRat
  borrowLimit : s'.stats.borrowLimit.toRat =
    moved s.stats.borrowLimit.toRat (truncate (value.toRat * terms.loanToValue.toRat))
  liquidationLimit : s'.stats.liquidationLimit.toRat =
    moved s.stats.liquidationLimit.toRat
      (truncate (value.toRat * terms.liquidationThreshold.toRat))
  liquidationLtv : Decimal.ratioOrZero s'.stats.liquidationLimit s'.stats.totalDeposit =
    .ok s'.stats.liquidationLtv
  borrows : s'.borrows = s.borrows
  totalBorrow : s'.stats.totalBorrow = s.stats.totalBorrow
  weightedBorrow : s'.stats.weightedBorrow = s.stats.weightedBorrow

theorem addDeposit_step {o : Obligation} {m : Market} {s s' : Scenario} {amount : Decimal}
    {mint : String} (h : o.addDeposit m s amount mint = .ok s') :
    ∃ r terms value changed, DepositStep o m s s' amount mint r terms value changed := by
  unfold addDeposit at h
  simp only [bind_eq_ok_iff] at h
  obtain ⟨r, hr, terms, hterms, _, hgroup, value, hvalue, stats, hstats, changed, hchanged, h⟩ := h
  cases h
  unfold ObligationStats.addDeposit at hstats
  simp only [bind_eq_ok_iff] at hstats
  obtain ⟨total, htotal, backed, hbacked, liquidation, hliquidation, lent, hlent, limit, hlimit,
    ltv, hltv, hstats⟩ := hstats
  cases hstats
  refine ⟨r, terms, value, changed, hr, hterms, admits_of_requireGroup hgroup, hvalue,
    Position.add_step hchanged, toRat_moved htotal, ?_, ?_, hltv, rfl, rfl, rfl⟩
  · rw [← mul_value hlent]
    exact toRat_moved hlimit
  · rw [← mul_value hbacked]
    exact toRat_moved hliquidation

/-! ## Borrows -/

structure BorrowStep (o : Obligation) (m : Market) (s s' : Scenario) (amount : Decimal)
    (mint : String) (r : Reserve) (weight value : Decimal) (changed : Position) : Prop where
  reserve_eq : m.reserveOfMint mint = .ok r
  weight_eq : r.debtWeight o.elevationGroup = .ok weight
  admitted : o.Admits r
  value_eq : r.valueOf amount = .ok value
  position : PositionStep s.borrows s'.borrows r mint amount value changed
  totalBorrow : s'.stats.totalBorrow.toRat = moved s.stats.totalBorrow.toRat value.toRat
  weightedBorrow : s'.stats.weightedBorrow.toRat =
    moved s.stats.weightedBorrow.toRat (truncate (value.toRat * weight.toRat))
  deposits : s'.deposits = s.deposits
  totalDeposit : s'.stats.totalDeposit = s.stats.totalDeposit
  borrowLimit : s'.stats.borrowLimit = s.stats.borrowLimit
  liquidationLimit : s'.stats.liquidationLimit = s.stats.liquidationLimit
  liquidationLtv : s'.stats.liquidationLtv = s.stats.liquidationLtv

theorem addBorrow_step {o : Obligation} {m : Market} {s s' : Scenario} {amount : Decimal}
    {mint : String} (h : o.addBorrow m s amount mint = .ok s') :
    ∃ r weight value changed, BorrowStep o m s s' amount mint r weight value changed := by
  unfold addBorrow at h
  simp only [bind_eq_ok_iff] at h
  obtain ⟨r, hr, _, hgroup, weight, hweight, value, hvalue, share, hshare, stats, hstats, changed,
    hchanged, h⟩ := h
  cases h
  unfold ObligationStats.addBorrow at hstats
  simp only [bind_eq_ok_iff] at hstats
  obtain ⟨total, htotal, weighted, hweighted, hstats⟩ := hstats
  cases hstats
  refine ⟨r, weight, value, changed, hr, hweight, admits_of_requireGroup hgroup, hvalue,
    Position.add_step hchanged, toRat_moved htotal, ?_, rfl, rfl, rfl, rfl, rfl⟩
  rw [← mul_value hshare]
  exact toRat_moved hweighted

/-! ## Legs -/

theorem addLeg_eq (o : Obligation) (m : Market) (s : Scenario) (leg : Leg) :
    o.addLeg m s leg = leg.signed >>= fun amount =>
      match leg.kind.side with
      | .deposits => o.addDeposit m s amount leg.mint
      | .borrows => o.addBorrow m s amount leg.mint := by
  obtain ⟨kind, amount, mint⟩ := leg
  cases kind <;> rfl

structure LegStep (m : Market) (s s' : Scenario) (leg : Leg) (r : Reserve)
    (amount value : Decimal) (changed : Position) : Prop where
  signed_eq : leg.signed = .ok amount
  reserve_eq : m.reserveOfMint leg.mint = .ok r
  value_eq : r.valueOf amount = .ok value
  position : PositionStep (s.positions leg.kind.side) (s'.positions leg.kind.side) r leg.mint
    amount value changed
  total : (s'.total leg.kind.side).toRat = moved (s.total leg.kind.side).toRat value.toRat
  others : ∀ other, leg.kind.side ≠ other →
    s'.positions other = s.positions other ∧ s'.total other = s.total other

theorem addLeg_step {o : Obligation} {m : Market} {s s' : Scenario} {leg : Leg}
    (h : o.addLeg m s leg = .ok s') :
    ∃ r amount value changed, LegStep m s s' leg r amount value changed := by
  rw [addLeg_eq] at h
  obtain ⟨amount, signed, h⟩ := bind_eq_ok_iff.mp h
  cases side : leg.kind.side with
  | deposits =>
    rw [side] at h
    obtain ⟨r, terms, value, changed, step⟩ := addDeposit_step h
    refine ⟨r, amount, value, changed, signed, step.reserve_eq, step.value_eq, ?_, ?_, ?_⟩
    · rw [side]
      exact step.position
    · rw [side]
      exact step.totalDeposit
    · rintro (_ | _) apart
      · exact absurd side apart
      · exact ⟨step.borrows, step.totalBorrow⟩
  | borrows =>
    rw [side] at h
    obtain ⟨r, weight, value, changed, step⟩ := addBorrow_step h
    refine ⟨r, amount, value, changed, signed, step.reserve_eq, step.value_eq, ?_, ?_, ?_⟩
    · rw [side]
      exact step.position
    · rw [side]
      exact step.totalBorrow
    · rintro (_ | _) apart
      · exact ⟨step.deposits, step.totalDeposit⟩
      · exact absurd side apart

/-! ## Whole actions -/

/-- Working out the ratios anew changes none of the totals. -/
theorem refresh_totals {s s' : ObligationStats} (h : s.refresh = .ok s') :
    s'.totalDeposit = s.totalDeposit ∧ s'.totalBorrow = s.totalBorrow ∧
      s'.weightedBorrow = s.weightedBorrow ∧ s'.borrowLimit = s.borrowLimit := by
  unfold ObligationStats.refresh at h
  simp only [bind_eq_ok_iff] at h
  obtain ⟨net, -, ltv, -, leverage, -, utilization, -, h⟩ := h
  cases h
  exact ⟨rfl, rfl, rfl, rfl⟩

end Obligation

structure ObligationRequest.Asks (q : ObligationRequest) (action : Action) (amount : Decimal)
    (mint : String) : Prop where
  action_eq : q.action.resolve = .ok action
  amount_eq : q.amount = amount
  mint_eq : q.mint = mint

namespace Obligation

/-- An action of one leg is that leg, with the ratios worked out anew. -/
theorem simulate_one {o : Obligation} {m : Market} {q : ObligationRequest} {action : Action}
    {leg : Leg} {s : Scenario} (resolved : q.action.resolve = .ok action)
    (single : q.legs action = .ok [leg]) (h : o.simulate m q = .ok s) :
    ∃ once stats, o.addLeg m o.scenario leg = .ok once ∧ once.stats.refresh = .ok stats ∧
      s = { once with stats } := by
  unfold simulate at h
  rw [resolved] at h
  simp only [bind_eq_ok_iff] at h
  obtain ⟨_, ⟨⟩, legs, hlegs, once, run, stats, refreshed, h⟩ := h
  cases single.symm.trans hlegs
  cases h
  unfold addLegs at run
  rw [List.foldlM_cons] at run
  obtain ⟨final, first, rest⟩ := bind_eq_ok_iff.mp run
  cases rest
  exact ⟨once, stats, first, refreshed, rfl⟩

variable {o : Obligation} {m : Market} {q : ObligationRequest} {x : Decimal} {mint : String}
  {s : Scenario}

theorem simulate_borrow (asks : q.Asks .borrow x mint) (h : o.simulate m q = .ok s) :
    ∃ once, o.addBorrow m o.scenario x mint = .ok once ∧
      s.stats.weightedBorrow = once.stats.weightedBorrow ∧
      s.stats.borrowLimit = once.stats.borrowLimit := by
  obtain ⟨once, stats, step, refreshed, rfl⟩ := simulate_one asks.action_eq rfl h
  obtain ⟨-, -, weighted, limit⟩ := refresh_totals refreshed
  rw [asks.amount_eq, asks.mint_eq] at step
  exact ⟨once, step, weighted, limit⟩

theorem simulate_withdraw (asks : q.Asks .withdraw x mint) (h : o.simulate m q = .ok s) :
    ∃ out once, x.negated = .ok out ∧ o.addDeposit m o.scenario out mint = .ok once ∧
      s.stats.weightedBorrow = once.stats.weightedBorrow ∧
      s.stats.borrowLimit = once.stats.borrowLimit := by
  obtain ⟨once, stats, step, refreshed, rfl⟩ := simulate_one asks.action_eq rfl h
  obtain ⟨-, -, weighted, limit⟩ := refresh_totals refreshed
  rw [asks.amount_eq, asks.mint_eq] at step
  obtain ⟨out, negated, step⟩ := bind_eq_ok_iff.mp step
  exact ⟨out, once, negated, step, weighted, limit⟩

end Obligation

end Lending
