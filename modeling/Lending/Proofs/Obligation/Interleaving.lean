/-
  Lending.Proofs.Obligation.Interleaving — the two sides of an obligation do not see each other.

  A leg reads and writes the positions and totals of its own side only, and keeps all other
  figures (`addDeposit_keeps`, `addBorrow_keeps`). So a scenario is two halves put together
  (`Scenario.merge`), and each leg is done in the half of its side (`addLeg_deposits`,
  `addLeg_borrows`). A run of legs comes to what its deposit legs make of one half and its borrow
  legs of the other (`addLegs_merge`); how the two kinds are interleaved does not show, and an
  action with two legs may as well do the second one first (`interleaving_irrelevant`).
-/
import Lending.Proofs.Obligation.Legs

namespace Lending

open Outcome

/-! ## Halves -/

namespace ObligationStats

def withBorrows (s t : ObligationStats) : ObligationStats :=
  { s with totalBorrow := t.totalBorrow, weightedBorrow := t.weightedBorrow }

theorem addDeposit_withBorrows (s t : ObligationStats) (terms : CollateralTerms)
    (value : Decimal) :
    (s.withBorrows t).addDeposit terms value = (·.withBorrows t) <$> s.addDeposit terms value := by
  unfold addDeposit
  simp only [map_bind, map_pure]
  rfl

theorem addBorrow_withBorrows (s t : ObligationStats) (value weighted : Decimal) :
    (s.withBorrows t).addBorrow value weighted = s.withBorrows <$> t.addBorrow value weighted := by
  unfold addBorrow
  simp only [map_bind, map_pure]
  rfl

def withDeposits (s t : ObligationStats) : ObligationStats :=
  { s with
    totalDeposit := t.totalDeposit, borrowLimit := t.borrowLimit,
    liquidationLimit := t.liquidationLimit, liquidationLtv := t.liquidationLtv }

theorem addDeposit_keeps {s s' : ObligationStats} {terms : CollateralTerms} {value : Decimal}
    (h : s.addDeposit terms value = .ok s') : s' = s.withDeposits s' := by
  unfold addDeposit at h
  simp only [bind_eq_ok_iff] at h
  obtain ⟨total, -, backed, -, liquidation, -, lent, -, limit, -, ltv, -, h⟩ := h
  cases h
  rfl

theorem addBorrow_keeps {s s' : ObligationStats} {value weighted : Decimal}
    (h : s.addBorrow value weighted = .ok s') : s' = s.withBorrows s' := by
  unfold addBorrow at h
  simp only [bind_eq_ok_iff] at h
  obtain ⟨total, -, weightedTotal, -, h⟩ := h
  cases h
  rfl

end ObligationStats

def Scenario.merge (d b : Scenario) : Scenario where
  stats := d.stats.withBorrows b.stats
  deposits := d.deposits
  borrows := b.borrows

theorem Scenario.merge_self (s : Scenario) : s.merge s = s := rfl

namespace Obligation

variable (o : Obligation) (m : Market)

theorem addDeposit_merge (d b : Scenario) (x : Decimal) (mint : String) :
    o.addDeposit m (d.merge b) x mint = (·.merge b) <$> o.addDeposit m d x mint := by
  unfold addDeposit
  simp only [map_bind, map_pure, Scenario.merge, ObligationStats.addDeposit_withBorrows,
    bind_map_left]

theorem addBorrow_merge (d b : Scenario) (x : Decimal) (mint : String) :
    o.addBorrow m (d.merge b) x mint = d.merge <$> o.addBorrow m b x mint := by
  unfold addBorrow
  simp only [map_bind, map_pure, Scenario.merge, ObligationStats.addBorrow_withBorrows,
    bind_map_left]

variable {o m}

/-- A change of the deposits keeps all figures but their totals. -/
theorem addDeposit_keeps {s s' : Scenario} {x : Decimal} {mint : String}
    (h : o.addDeposit m s x mint = .ok s') : s'.stats = s.stats.withDeposits s'.stats := by
  unfold addDeposit at h
  simp only [bind_eq_ok_iff] at h
  obtain ⟨r, -, terms, -, _, -, value, -, stats, added, changed, -, h⟩ := h
  cases h
  exact ObligationStats.addDeposit_keeps added

/-- A change of the borrows keeps all figures but their totals. -/
theorem addBorrow_keeps {s s' : Scenario} {x : Decimal} {mint : String}
    (h : o.addBorrow m s x mint = .ok s') : s'.stats = s.stats.withBorrows s'.stats := by
  unfold addBorrow at h
  simp only [bind_eq_ok_iff] at h
  obtain ⟨r, -, _, -, weight, -, value, -, share, -, stats, added, changed, -, h⟩ := h
  cases h
  exact ObligationStats.addBorrow_keeps added

variable (o m)

theorem addLeg_deposits {leg : Leg} (side : leg.kind.side = .deposits) (d b : Scenario) :
    o.addLeg m (d.merge b) leg = (·.merge b) <$> o.addLeg m d leg := by
  rw [addLeg_eq, addLeg_eq, side]
  simp only [addDeposit_merge, map_bind]

theorem addLeg_borrows {leg : Leg} (side : leg.kind.side = .borrows) (d b : Scenario) :
    o.addLeg m (d.merge b) leg = d.merge <$> o.addLeg m b leg := by
  rw [addLeg_eq, addLeg_eq, side]
  simp only [addBorrow_merge, map_bind]

/-! ## Runs -/

theorem addLegs_cons (s : Scenario) (leg : Leg) (rest : List Leg) :
    o.addLegs m s (leg :: rest) = o.addLeg m s leg >>= fun next => o.addLegs m next rest :=
  List.foldlM_cons

end Obligation

def Side.legs (side : Side) (legs : List Leg) : List Leg := legs.filter (·.kind.side = side)

theorem Side.legs_cons (side : Side) (leg : Leg) (rest : List Leg) :
    side.legs (leg :: rest) =
      if leg.kind.side = side then leg :: side.legs rest else side.legs rest := by
  unfold legs
  rw [List.filter_cons]
  simp only [decide_eq_true_eq]

/-- A run can be done exactly if both of its halves can, and puts their results together. -/
theorem Obligation.addLegs_merge (o : Obligation) (m : Market) (legs : List Leg)
    (d b final : Scenario) :
    o.addLegs m (d.merge b) legs = .ok final ↔
      ∃ d' b', o.addLegs m d (Side.deposits.legs legs) = .ok d' ∧
        o.addLegs m b (Side.borrows.legs legs) = .ok b' ∧ d'.merge b' = final := by
  induction legs generalizing d b with
  | nil =>
    constructor
    · intro h
      cases h
      exact ⟨d, b, rfl, rfl, rfl⟩
    · rintro ⟨_, _, ⟨⟩, ⟨⟩, rfl⟩
      rfl
  | cons leg rest ih =>
    rw [addLegs_cons, Side.legs_cons, Side.legs_cons]
    cases side : leg.kind.side with
    | deposits =>
      rw [o.addLeg_deposits m side, if_pos rfl, if_neg Side.noConfusion, addLegs_cons,
        bind_map_left]
      simp only [bind_eq_ok_iff, ih]
      constructor
      · rintro ⟨next, first, d', b', deposits, borrows, same⟩
        exact ⟨d', b', ⟨next, first, deposits⟩, borrows, same⟩
      · rintro ⟨d', b', ⟨next, first, deposits⟩, borrows, same⟩
        exact ⟨next, first, d', b', deposits, borrows, same⟩
    | borrows =>
      rw [o.addLeg_borrows m side, if_pos rfl, if_neg Side.noConfusion, addLegs_cons,
        bind_map_left]
      simp only [bind_eq_ok_iff, ih]
      constructor
      · rintro ⟨next, first, d', b', deposits, borrows, same⟩
        exact ⟨d', b', deposits, ⟨next, first, borrows⟩, same⟩
      · rintro ⟨d', b', deposits, ⟨next, first, borrows⟩, same⟩
        exact ⟨next, first, d', b', deposits, borrows, same⟩

/-- Runs that do the same legs on each side, in the same order there. -/
structure SameSides (legs legs' : List Leg) : Prop where
  deposits : Side.deposits.legs legs = Side.deposits.legs legs'
  borrows : Side.borrows.legs legs = Side.borrows.legs legs'

theorem SameSides.addLegs_eq_ok_iff {legs legs' : List Leg} (same : SameSides legs legs')
    (o : Obligation) (m : Market) (s final : Scenario) :
    o.addLegs m s legs = .ok final ↔ o.addLegs m s legs' = .ok final := by
  rw [← s.merge_self, o.addLegs_merge, o.addLegs_merge, same.deposits, same.borrows]

/-! ## Actions -/

def Obligation.perform (o : Obligation) (m : Market) (legs : List Leg) : Outcome Scenario := do
  let final ← o.addLegs m o.scenario legs
  let stats ← final.stats.refresh
  pure { final with stats }

theorem Obligation.simulate_eq_perform (o : Obligation) (m : Market) {q : ObligationRequest}
    {action : Action} {legs : List Leg} (resolved : q.action.resolve = .ok action)
    (single : q.legs action = .ok legs) : o.simulate m q = o.perform m legs := by
  unfold simulate perform
  rw [resolved]
  show (q.legs action >>= fun legs => _) = _
  rw [single]
  rfl

/-- The legs of an action are on different sides. -/
theorem ObligationRequest.sameSides_reverse {q : ObligationRequest} {action : Action}
    {legs : List Leg} (h : q.legs action = .ok legs) : SameSides legs legs.reverse := by
  cases action <;> cases h <;> exact ⟨rfl, rfl⟩

/-- The interleaving of the deposit legs of a run with its borrow legs does not show in the
    result. Nor does the order of the two legs of an action. -/
theorem interleaving_irrelevant (o : Obligation) (m : Market) :
    (∀ s legs legs', SameSides legs legs' → ∀ final,
      (o.addLegs m s legs = .ok final ↔ o.addLegs m s legs' = .ok final)) ∧
    ∀ (q : ObligationRequest) action legs, q.action.resolve = .ok action →
      q.legs action = .ok legs → ∀ final,
      (o.simulate m q = .ok final ↔ o.perform m legs.reverse = .ok final) := by
  refine ⟨fun s legs legs' same => same.addLegs_eq_ok_iff o m s, ?_⟩
  intro q action legs resolved listed final
  rw [o.simulate_eq_perform m resolved listed]
  unfold Obligation.perform
  simp only [bind_eq_ok_iff, (q.sameSides_reverse listed).addLegs_eq_ok_iff]

namespace Sample

def loanFirst : List Leg :=
  [⟨.borrow, 100000, "token"⟩, ⟨.withdraw, 1000000, "token"⟩, ⟨.deposit, 1500000, "token"⟩]

end Sample

theorem interleaving_irrelevant_sample :
    (∃ final, Sample.obligation.addLegs Sample.market Sample.obligation.scenario Sample.legs =
        .ok final ∧
      Sample.obligation.addLegs Sample.market Sample.obligation.scenario Sample.loanFirst =
        .ok final) ∧
    ∃ final, Sample.obligation.simulate Sample.market
        (Sample.request "repayAndWithdraw" 1000 "token") = .ok final ∧
      Sample.obligation.perform Sample.market
        [⟨.withdraw, 1000, "token"⟩, ⟨.repay, 1000, "token"⟩] = .ok final := by
  obtain ⟨runs, actions⟩ := interleaving_irrelevant Sample.obligation Sample.market
  constructor
  · obtain ⟨final, run⟩ := exists_of_isOk (show (Sample.obligation.addLegs Sample.market
      Sample.obligation.scenario Sample.legs).isOk by decide +kernel)
    have same : SameSides Sample.legs Sample.loanFirst := ⟨by decide, by decide⟩
    exact ⟨final, run, (runs _ _ _ same final).mp run⟩
  · obtain ⟨final, run⟩ := exists_of_isOk (show (Sample.obligation.simulate Sample.market
      (Sample.request "repayAndWithdraw" 1000 "token")).isOk by decide +kernel)
    have either_order := actions (Sample.request "repayAndWithdraw" 1000 "token")
      .repayAndWithdraw [⟨.repay, 1000, "token"⟩, ⟨.withdraw, 1000, "token"⟩]
      (by decide +kernel) (by decide +kernel) final
    exact ⟨final, run, either_order.mp run⟩

end Lending
