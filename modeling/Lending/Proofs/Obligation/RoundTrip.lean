/-
  Lending.Proofs.Obligation.RoundTrip — an amount that is put in and taken out again.

  A change and its opposite move every figure by the same increment there and back, because
  scaling to dollars does not see the sign (`Pool.valueOf_opposite`). A sum that is not cut is
  undone exactly; of one that is, each of the two steps loses a unit at most, and the floor is
  met only by what was lost (`restored_moved`). The second leg finds the position that the first
  one changed (`PositionStep.ofMint_after`).
-/
import Lending.Proofs.Obligation.ExtendedLegs
import Lending.Proofs.Obligation.Idle
import Lending.Proofs.Obligation.Revaluable

namespace Lending

open Outcome Truncation

/-! ## Figures -/

def SumExact (before change : ℚ) : Prop := truncate (before + change) = before + change

/-- A figure to which a change was added and from which it was taken again. -/
structure Restored (before change after : ℚ) : Prop where
  near : |after - before| ≤ 2 / 10 ^ 39 * (before + change)
  exact : SumExact before change → after = before

theorem restored_moved {x d : ℚ} (figure : Figure x) (nonneg : 0 ≤ d)
    (kept : ¬ Underflows (x + d)) : Restored x d (moved (moved x d) (-d)) := by
  have sum_nonneg : 0 ≤ x + d := add_nonneg figure.nonneg nonneg
  have cut := truncate_le sum_nonneg
  have lost := sub_truncate_le sum_nonneg kept
  have units : 2 / 10 ^ 39 * (x + d) = ulp * (x + d) + ulp * (x + d) := by
    rw [ulp_eq]
    ring
  rw [moved_of_nonneg sum_nonneg]
  by_cases exact : SumExact x d
  · have back : moved (truncate (x + d)) (-d) = x := by
      unfold moved
      rw [show truncate (x + d) = x + d from exact, add_neg_cancel_right,
        figure.exact.truncate_eq, max_eq_left figure.nonneg]
    refine ⟨?_, fun _ => back⟩
    rw [back, sub_self, abs_zero]
    positivity
  · refine ⟨?_, fun same => absurd same exact⟩
    -- a sum that is cut is in the normal range
    have normal : (10 : ℚ) ^ (-money.maxExponent : ℤ) ≤ x + d := by
      by_contra small
      exact kept ⟨by rwa [abs_of_nonneg sum_nonneg, ← not_le], exact⟩
    unfold moved
    rcases le_total 0 (truncate (x + d) + -d) with covered | short
    · have again := sub_truncate_le_of_normal covered (by linarith) normal
      have below := truncate_le covered
      rw [max_eq_left (truncate_nonneg covered), abs_sub_comm, abs_of_nonneg (by linarith), units]
      linarith
    · rw [max_eq_right (le_truncate_of_nonpos short).2, zero_sub, abs_neg,
        abs_of_nonneg figure.nonneg, units]
      linarith

/-- Figures never underflow when they are added. -/
theorem restored_of_figures {x d : ℚ} (figure : Figure x) (nonneg : 0 ≤ d)
    (exact : Representable d) : Restored x d (moved (moved x d) (-d)) :=
  restored_moved figure nonneg (figure.exact.onGrid.add exact.onGrid).not_underflows

/-- The same share of the opposite value. -/
theorem restored_share {x value share : ℚ} (figure : Figure x) (value_nonneg : 0 ≤ value)
    (share_nonneg : 0 ≤ share) :
    Restored x (truncate (value * share))
      (moved (moved x (truncate (value * share))) (truncate (-value * share))) := by
  rw [neg_mul, truncate_neg]
  exact restored_of_figures figure (truncate_nonneg (mul_nonneg value_nonneg share_nonneg))
    (representable_truncate _)

/-- The opposite amount is worth the opposite. -/
theorem Pool.valueOf_opposite {p : Pool} {x y value value' : Decimal}
    (opposite : y.toRat = -x.toRat) (h : p.valueOf x = .ok value) (h' : p.valueOf y = .ok value') :
    value'.toRat = -value.toRat := by
  obtain ⟨factor, factor_eq, -, dollars⟩ := valueOf_steps h
  obtain ⟨own, own_eq, -, dollars'⟩ := valueOf_steps h'
  cases factor_eq.symm.trans own_eq
  rw [dollars', opposite, scaleBy_neg, dollars]

/-! ## Positions -/

/-- Positions that are in the same reserves and tokens, in the same order, have the same one
    changed by a leg. -/
theorem Position.target_congr {before after : AddressMap Position} (r : Reserve) (mint : String)
    (related : List.Forall₂ (fun entry entry' => entry.1 = entry'.1 ∧
      entry.2.mint = entry'.2.mint ∧ entry.2.reserve = entry'.2.reserve)
      before.entries after.entries) :
    Position.target before r mint = Position.target after r mint := by
  have searched : Option.Rel (fun p p' : Position => p.mint = p'.mint ∧ p.reserve = p'.reserve)
      (before.values.reverse.find? (·.mint == mint))
      (after.values.reverse.find? (·.mint == mint)) := by
    unfold AddressMap.values
    rw [← List.map_reverse, ← List.map_reverse]
    -- searched from its end, a side is the map of its entries from the last on
    show Option.Rel _ ((⟨before.entries.reverse⟩ : AddressMap Position).values.find? _)
      ((⟨after.entries.reverse⟩ : AddressMap Position).values.find? _)
    exact AddressMap.rel_find?_values (List.forall₂_reverse_iff.mpr related) fun p p' same => by
      rw [same.1]
  unfold target ofMint
  generalize before.values.reverse.find? (·.mint == mint) = first at searched ⊢
  generalize after.values.reverse.find? (·.mint == mint) = second at searched ⊢
  cases searched with
  | none => rfl
  | some same => exact same.2

/-- The position of a token, changed by an amount of a value and back, with all others as they
    were. -/
structure PositionRestored (before after : AddressMap Position) (r : Reserve) (mint : String)
    (amount value : ℚ) (left : Position) : Prop where
  changes : ChangesOnly before after (Position.target before r mint) left
  mint_eq : left.mint = mint
  /-- The original position, which is an empty one if it is new. -/
  original : before.find? (Position.target before r mint) = some (Position.ofMint before r mint) ∨
    before.find? (Position.target before r mint) = none ∧
      (Position.ofMint before r mint).Empty (Position.target before r mint)
  amount : Restored (Position.ofMint before r mint).amount.toRat amount left.amount.toRat
  value : Restored (Position.ofMint before r mint).value.toRat value left.value.toRat

section
variable {before after final : AddressMap Position} {m : Market} {r : Reserve} {mint : String}
  {amount value back opposite : Decimal} {changed left : Position} (filed : Filed before)
  (recognized : m.Recognizes before mint) (found : m.reserveOfMint mint = .ok r)
  (change : PositionStep before after r mint amount value changed)
include filed recognized found change

/-- After a change of the position of a token, it is that position. -/
theorem PositionStep.ofMint_after : Position.ofMint after r mint = changed := by
  have token : changed.mint = mint := change.mint_eq.trans (Position.ofMint_mint before r mint)
  rcases filed.ofMint_cases recognized found with known | ⟨new, free⟩
  · -- the position is changed in its place, and the others keep their tokens
    have related := AddressMap.forall₂_insert_of_find?
      (R := fun p p' : Position => p.mint = p'.mint ∧ p.reserve = p'.reserve)
      (fun _ _ => ⟨rfl, rfl⟩) known ⟨change.mint_eq.symm, change.reserve_eq.symm⟩
    rw [← change.entered] at related
    have filed_after := filed.step change
    rcases Position.ofMint_cases filed_after.distinct filed_after.keyed r mint with
      there | ⟨-, without⟩
    · change after.find? (Position.target after r mint) = _ at there
      rw [← Position.target_congr r mint related, change.changesOnly.entry] at there
      exact (Option.some.inj there).symm
    · exact absurd token (without changed (AddressMap.mem_values_of_find? change.changesOnly.entry))
  · have entries : after.entries = before.entries ++ [(r.address, changed)] := by
      rw [change.entered, new]
      exact AddressMap.insertEntry_of_fresh (AddressMap.notMem_of_find?_eq_none free)
    unfold Position.ofMint AddressMap.values
    rw [entries, List.map_append, List.reverse_append]
    simp [token]

/-- A change of the position of a token and the opposite change. -/
theorem PositionStep.restored (nonneg : 0 ≤ amount.toRat) (value_nonneg : 0 ≤ value.toRat)
    (kept : ¬ Underflows ((Position.ofMint before r mint).amount.toRat + amount.toRat))
    (exact : Representable value.toRat) (amounts : back.toRat = -amount.toRat)
    (values : opposite.toRat = -value.toRat)
    (undo : PositionStep after final r mint back opposite left) :
    PositionRestored before final r mint amount.toRat value.toRat left := by
  have again := change.ofMint_after filed recognized found
  obtain ⟨amount_figure, value_figure⟩ := filed.ofMint_figures r mint
  have target : Position.target after r mint = Position.target before r mint := by
    unfold Position.target
    rw [again, change.reserve_eq]
  refine ⟨change.changesOnly.trans (target ▸ undo.changesOnly), ?_, ?_, ?_, ?_⟩
  · exact undo.mint_eq.trans (Position.ofMint_mint after r mint)
  · rcases filed.ofMint_cases recognized found with known | ⟨new, free⟩
    · exact .inl known
    · unfold Position.target
      rw [new]
      exact .inr ⟨free, rfl, Decimal.toRat_zero, Decimal.toRat_zero⟩
  · rw [undo.amount_eq, again, change.amount_eq, amounts]
    exact restored_moved amount_figure nonneg kept
  · rw [undo.value_eq, again, change.value_eq, values]
    exact restored_of_figures value_figure value_nonneg exact

end

/-! ## Totals -/

def ObligationStats.Recovered (s s' : ObligationStats) : Prop :=
  s.SameTotals s' ∧ ∃ t, s'.refresh = .ok t ∧ s.Same t

namespace Obligation

variable {o : Obligation} {m : Market} {s once s' : Scenario} {a back : Decimal} {mint : String}
  {r : Reserve}

/-- The deposits after an amount was put in and taken out again. -/
structure DepositUndone (o : Obligation) (m : Market) (s s' : Scenario) (a : Decimal)
    (mint : String) (r : Reserve) (terms : CollateralTerms) (value : Decimal) (left : Position) :
    Prop where
  terms_eq : m.collateralTerms o.elevationGroup r = .ok terms
  value_eq : r.valueOf a = .ok value
  totalDeposit : Restored s.stats.totalDeposit.toRat value.toRat s'.stats.totalDeposit.toRat
  borrowLimit : Restored s.stats.borrowLimit.toRat
    (truncate (value.toRat * terms.loanToValue.toRat)) s'.stats.borrowLimit.toRat
  liquidationLimit : Restored s.stats.liquidationLimit.toRat
    (truncate (value.toRat * terms.liquidationThreshold.toRat)) s'.stats.liquidationLimit.toRat
  position : m.Recognizes s.deposits mint →
    PositionRestored s.deposits s'.deposits r mint a.toRat value.toRat left
  borrows : s'.borrows = s.borrows
  others : s'.stats = s.stats.withDeposits s'.stats
  recovered : SumExact s.stats.totalDeposit.toRat value.toRat →
    SumExact s.stats.borrowLimit.toRat (truncate (value.toRat * terms.loanToValue.toRat)) →
    SumExact s.stats.liquidationLimit.toRat
      (truncate (value.toRat * terms.liquidationThreshold.toRat)) →
    s.stats.Recovered s'.stats

structure BorrowUndone (o : Obligation) (m : Market) (s s' : Scenario) (a : Decimal)
    (mint : String) (r : Reserve) (weight value : Decimal) (left : Position) : Prop where
  weight_eq : r.debtWeight o.elevationGroup = .ok weight
  value_eq : r.valueOf a = .ok value
  totalBorrow : Restored s.stats.totalBorrow.toRat value.toRat s'.stats.totalBorrow.toRat
  weightedBorrow : Restored s.stats.weightedBorrow.toRat
    (truncate (value.toRat * weight.toRat)) s'.stats.weightedBorrow.toRat
  position : m.Recognizes s.borrows mint →
    PositionRestored s.borrows s'.borrows r mint a.toRat value.toRat left
  deposits : s'.deposits = s.deposits
  others : s'.stats = s.stats.withBorrows s'.stats
  recovered : SumExact s.stats.totalBorrow.toRat value.toRat →
    SumExact s.stats.weightedBorrow.toRat (truncate (value.toRat * weight.toRat)) →
    s.stats.Recovered s'.stats

section
variable (settled : s.stats.Settled) (unsigned : s.stats.Unsigned) (market : m.Unsigned)
  (nonneg : 0 ≤ a.toRat) (opposite : back.toRat = -a.toRat)
  (found : m.reserveOfMint mint = .ok r)
include settled unsigned market nonneg opposite found

theorem deposit_undone (filed : Filed s.deposits)
    (kept : ¬ Underflows ((Position.ofMint s.deposits r mint).amount.toRat + a.toRat))
    (h : o.addDeposit m s a mint = .ok once) (h' : o.addDeposit m once back mint = .ok s') :
    ∃ terms value left, o.DepositUndone m s s' a mint r terms value left := by
  obtain ⟨own, terms, value, changed, first⟩ := addDeposit_step h
  cases found.symm.trans first.reserve_eq
  obtain ⟨own, again, taken, left, second⟩ := addDeposit_step h'
  cases found.symm.trans second.reserve_eq
  cases first.terms_eq.symm.trans second.terms_eq
  obtain ⟨listed, -⟩ := Market.mint_of_reserveOfMint found
  obtain ⟨ltv_nonneg, threshold_nonneg⟩ := market.terms_nonneg listed first.terms_eq
  have value_nonneg := Pool.valueOf_nonneg (market.price r listed) nonneg first.value_eq
  have exact := Pool.representable_valueOf first.value_eq
  have values := Pool.valueOf_opposite opposite first.value_eq second.value_eq
  have total : Restored s.stats.totalDeposit.toRat value.toRat s'.stats.totalDeposit.toRat := by
    rw [second.totalDeposit, first.totalDeposit, values]
    exact restored_of_figures ⟨settled.totalDeposit.exact, unsigned.totalDeposit⟩ value_nonneg exact
  have limit : Restored s.stats.borrowLimit.toRat
      (truncate (value.toRat * terms.loanToValue.toRat)) s'.stats.borrowLimit.toRat := by
    rw [second.borrowLimit, first.borrowLimit, values]
    exact restored_share ⟨settled.borrowLimit.exact, unsigned.borrowLimit⟩ value_nonneg ltv_nonneg
  have liquidation : Restored s.stats.liquidationLimit.toRat
      (truncate (value.toRat * terms.liquidationThreshold.toRat))
      s'.stats.liquidationLimit.toRat := by
    rw [second.liquidationLimit, first.liquidationLimit, values]
    exact restored_share ⟨settled.liquidationLimit.exact, unsigned.liquidationLimit⟩ value_nonneg
      threshold_nonneg
  have others : s'.stats = s.stats.withDeposits s'.stats :=
    (addDeposit_keeps h').trans (congrArg (·.withDeposits s'.stats) (addDeposit_keeps h))
  refine ⟨terms, value, left, first.terms_eq, first.value_eq, total, limit, liquidation,
    fun recognized => first.position.restored filed recognized found nonneg value_nonneg kept exact
      opposite values second.position, second.borrows.trans first.borrows, others, ?_⟩
  intro total_exact limit_exact liquidation_exact
  have same_total := (total.exact total_exact).symm
  have same_liquidation := (liquidation.exact liquidation_exact).symm
  obtain ⟨ratio, given, same_ratio⟩ :=
    exists_ratioOrZero_congr same_liquidation same_total settled.liquidationLtv
  cases given.symm.trans second.liquidationLtv
  have same : s.stats.SameTotals s'.stats :=
    ⟨same_total, by rw [others]; rfl, by rw [others]; rfl, (limit.exact limit_exact).symm,
      same_liquidation, same_ratio, by rw [others]; rfl⟩
  exact ⟨same, same.refresh settled settled.refreshed⟩

theorem borrow_undone (filed : Filed s.borrows)
    (kept : ¬ Underflows ((Position.ofMint s.borrows r mint).amount.toRat + a.toRat))
    (h : o.addBorrow m s a mint = .ok once) (h' : o.addBorrow m once back mint = .ok s') :
    ∃ weight value left, o.BorrowUndone m s s' a mint r weight value left := by
  obtain ⟨own, weight, value, changed, first⟩ := addBorrow_step h
  cases found.symm.trans first.reserve_eq
  obtain ⟨own, again, taken, left, second⟩ := addBorrow_step h'
  cases found.symm.trans second.reserve_eq
  cases first.weight_eq.symm.trans second.weight_eq
  obtain ⟨listed, -⟩ := Market.mint_of_reserveOfMint found
  have weight_nonneg := market.weight_nonneg listed first.weight_eq
  have value_nonneg := Pool.valueOf_nonneg (market.price r listed) nonneg first.value_eq
  have exact := Pool.representable_valueOf first.value_eq
  have values := Pool.valueOf_opposite opposite first.value_eq second.value_eq
  have total : Restored s.stats.totalBorrow.toRat value.toRat s'.stats.totalBorrow.toRat := by
    rw [second.totalBorrow, first.totalBorrow, values]
    exact restored_of_figures ⟨settled.totalBorrow.exact, unsigned.totalBorrow⟩ value_nonneg exact
  have weighted : Restored s.stats.weightedBorrow.toRat (truncate (value.toRat * weight.toRat))
      s'.stats.weightedBorrow.toRat := by
    rw [second.weightedBorrow, first.weightedBorrow, values]
    exact restored_share ⟨settled.weightedBorrow.exact, unsigned.weightedBorrow⟩ value_nonneg
      weight_nonneg
  have others : s'.stats = s.stats.withBorrows s'.stats :=
    (addBorrow_keeps h').trans (congrArg (·.withBorrows s'.stats) (addBorrow_keeps h))
  refine ⟨weight, value, left, first.weight_eq, first.value_eq, total, weighted,
    fun recognized => first.position.restored filed recognized found nonneg value_nonneg kept exact
      opposite values second.position, second.deposits.trans first.deposits, others,
    fun total_exact weighted_exact => ?_⟩
  have same : s.stats.SameTotals s'.stats :=
    ⟨by rw [others]; rfl, (total.exact total_exact).symm, (weighted.exact weighted_exact).symm,
      by rw [others]; rfl, by rw [others]; rfl, by rw [others]; rfl, by rw [others]; rfl⟩
  exact ⟨same, same.refresh settled settled.refreshed⟩

end

/-- A leg that can be done and whose amount adds to the position of its token without an
    underflow. -/
structure Movable (o : Obligation) (m : Market) (leg : Leg) (r : Reserve) : Prop where
  grants : o.Grants m leg.mint leg.kind.side r
  kept : ¬ Underflows ((Position.ofMint (o.scenario.positions leg.kind.side) r
    leg.mint).amount.toRat + leg.amount.toRat)

end Obligation

def Leg.thenAmount (leg : Leg) (x : Decimal) : List Leg := [leg, { leg with amount := x }]

namespace Obligation

section
variable {o : Obligation} {m : Market} {leg : Leg} {r : Reserve}

theorem Grants.thenAmount_overflowOnly (fit : o.Grants m leg.mint leg.kind.side r)
    (opened : m.Opened) (x : Decimal) (s : Scenario) :
    (o.addLegs m s (leg.thenAmount x)).OverflowOnly := by
  have again : o.Grants m { leg with amount := x }.mint leg.kind.side r := fit
  exact (fit.addLeg_overflowOnly opened s).bind fun next _ =>
    (again.addLeg_overflowOnly opened next).bind fun _ _ => .pure _

theorem exists_of_thenAmount {x : Decimal} {s s' : Scenario}
    (h : o.addLegs m s (leg.thenAmount x) = .ok s') :
    ∃ once, o.addLeg m s leg = .ok once ∧ o.addLeg m once { leg with amount := x } = .ok s' := by
  unfold Leg.thenAmount at h
  rw [addLegs_cons] at h
  obtain ⟨once, first, h⟩ := bind_eq_ok_iff.mp h
  rw [addLegs_cons] at h
  obtain ⟨final, second, h⟩ := bind_eq_ok_iff.mp h
  cases h
  exact ⟨once, first, second⟩

end

/-- A deposit that is withdrawn again, or a borrow that is repaid, leaves each figure that it
    changed within a unit for each of the two legs, and as it was where no sum was cut; if none
    was, all ratios are as they were. No other position is changed if the market does not have
    the token where a position in another one is. -/
theorem round_trip {o : Obligation} (valued : o.Valued) (unsigned : o.scenario.Unsigned)
    {m : Market} (market : m.Unsigned) (opened : m.Opened) {a back : Decimal}
    (nonneg : 0 ≤ a.toRat) (opposite : back.toRat = -a.toRat) (mint : String) (r : Reserve) :
    (o.Movable m ⟨.deposit, a, mint⟩ r →
      (o.addLegs m o.scenario (Leg.thenAmount ⟨.deposit, a, mint⟩ back)).OverflowOnly ∧
      ∀ s, o.addLegs m o.scenario (Leg.thenAmount ⟨.deposit, a, mint⟩ back) = .ok s →
        ∃ terms value left, o.DepositUndone m o.scenario s a mint r terms value left) ∧
    (o.Movable m ⟨.borrow, a, mint⟩ r →
      (o.addLegs m o.scenario (Leg.thenAmount ⟨.borrow, a, mint⟩ back)).OverflowOnly ∧
      ∀ s, o.addLegs m o.scenario (Leg.thenAmount ⟨.borrow, a, mint⟩ back) = .ok s →
        ∃ weight value left, o.BorrowUndone m o.scenario s a mint r weight value left) := by
  refine ⟨fun movable => ⟨movable.grants.thenAmount_overflowOnly opened back _, fun s h => ?_⟩,
    fun movable => ⟨movable.grants.thenAmount_overflowOnly opened back _, fun s h => ?_⟩⟩
  · obtain ⟨once, first, second⟩ := exists_of_thenAmount h
    exact deposit_undone valued.settled unsigned.stats market nonneg opposite movable.grants.found
      (valued.filed unsigned .deposits) movable.kept first second
  · obtain ⟨once, first, second⟩ := exists_of_thenAmount h
    exact borrow_undone valued.settled unsigned.stats market nonneg opposite movable.grants.found
      (valued.filed unsigned .borrows) movable.kept first second

/-- Half a token, put into the sample's one reserve and taken out again. -/
theorem round_trip_sample :
    (∃ s terms value left, Sample.obligation.addLegs Sample.market Sample.obligation.scenario
        [⟨.deposit, 500000, "token"⟩, ⟨.deposit, Decimal.ofInt (-500000), "token"⟩] = .ok s ∧
      Sample.obligation.DepositUndone Sample.market Sample.obligation.scenario s 500000 "token"
        Sample.reserve terms value left ∧
      PositionRestored Sample.obligation.deposits s.deposits Sample.reserve "token"
        (500000 : Decimal).toRat value.toRat left) ∧
    ∃ s weight value left, Sample.obligation.addLegs Sample.market Sample.obligation.scenario
        [⟨.borrow, 500000, "token"⟩, ⟨.borrow, Decimal.ofInt (-500000), "token"⟩] = .ok s ∧
      Sample.obligation.BorrowUndone Sample.market Sample.obligation.scenario s 500000 "token"
        Sample.reserve weight value left ∧
      PositionRestored Sample.obligation.borrows s.borrows Sample.reserve "token"
        (500000 : Decimal).toRat value.toRat left := by
  have unsigned := Scenario.unsigned_sample
  have found : Sample.market.reserveOfMint "token" = .ok Sample.reserve := by decide +kernel
  have filed (side : Side) : Filed (Sample.obligation.scenario.positions side) :=
    valued_sample.filed unsigned side
  have recognized (side : Side) :
      Sample.market.Recognizes (Sample.obligation.scenario.positions side) "token" :=
    (places_of_value revaluable_sample.keyed revaluable_sample.valued side).recognizes
      revaluable_sample.keyed (by decide) (filed side).keyed "token"
  have movable (kind : LegKind) :
      Sample.obligation.Movable Sample.market ⟨kind, 500000, "token"⟩ Sample.reserve := by
    have whole : OnGrid (500000 : Decimal).toRat := by
      rw [Decimal.toRat_ofNat]
      exact_mod_cast onGrid_intCast 500000
    exact ⟨⟨found, .inl rfl, fun _ => .inl rfl⟩,
      (((filed kind.side).ofMint_figures _ _).1.exact.onGrid.add whole).not_underflows⟩
  have opposite : (Decimal.ofInt (-500000)).toRat = -(500000 : Decimal).toRat := by
    rw [Decimal.toRat_ofInt, Decimal.toRat_ofNat]
    norm_num
  obtain ⟨deposits, borrows⟩ := round_trip valued_sample unsigned revaluable_sample.unsigned
    (by decide +kernel) (by decide +kernel) opposite "token" Sample.reserve
  obtain ⟨s, done⟩ := exists_of_isOk (show (Sample.obligation.addLegs Sample.market
    Sample.obligation.scenario [⟨.deposit, 500000, "token"⟩,
      ⟨.deposit, Decimal.ofInt (-500000), "token"⟩]).isOk by decide +kernel)
  obtain ⟨s', done'⟩ := exists_of_isOk (show (Sample.obligation.addLegs Sample.market
    Sample.obligation.scenario [⟨.borrow, 500000, "token"⟩,
      ⟨.borrow, Decimal.ofInt (-500000), "token"⟩]).isOk by decide +kernel)
  obtain ⟨terms, value, left, undone⟩ := (deposits (movable .deposit)).2 s done
  obtain ⟨weight, value', left', undone'⟩ := (borrows (movable .borrow)).2 s' done'
  exact ⟨⟨s, terms, value, left, done, undone, undone.position (recognized .deposits)⟩,
    s', weight, value', left', done', undone', undone'.position (recognized .borrows)⟩

/-- Five units are put in and taken out again where the market now has their token and the
    deposit in another one was: an empty position is left, and the deposit is gone. -/
theorem renamed_round_trip_displaces :
    Sample.depositor.Valued ∧ Sample.depositor.scenario.Unsigned ∧ Sample.renamed.Unsigned ∧
    Sample.renamed.Opened ∧
    Sample.depositor.deposits.find? "second" = some ⟨"second", "token", ⟨false, 1, 6⟩, 2⟩ ∧
    ∃ r s, Sample.depositor.Movable Sample.renamed ⟨.deposit, 5, "coin"⟩ r ∧
      Sample.depositor.addLegs Sample.renamed Sample.depositor.scenario
        (Leg.thenAmount ⟨.deposit, 5, "coin"⟩ (Decimal.ofInt (-5))) = .ok s ∧
      s.deposits.find? "second" = some ⟨"second", "coin", 0, 0⟩ ∧
      ¬ ∃ value left, PositionRestored Sample.depositor.deposits s.deposits r "coin"
        (5 : Decimal).toRat value left := by
  have was : Sample.depositor.deposits.find? "second" =
      some ⟨"second", "token", ⟨false, 1, 6⟩, 2⟩ := by decide
  obtain ⟨s, done, left⟩ := map_eq_ok_iff.mp (show (·.deposits.find? "second") <$>
    Sample.depositor.addLegs Sample.renamed Sample.depositor.scenario
      (Leg.thenAmount ⟨.deposit, 5, "coin"⟩ (Decimal.ofInt (-5))) =
        .ok (some ⟨"second", "coin", 0, 0⟩) by decide +kernel)
  have new : Position.ofMint Sample.depositor.deposits (Sample.idle "second" "coin" 6 1) "coin" =
      ⟨"second", "coin", 0, 0⟩ := by decide
  have whole : OnGrid (0 + (5 : Decimal).toRat) := by
    rw [Decimal.toRat_ofNat, zero_add]
    exact_mod_cast onGrid_intCast 5
  refine ⟨Sample.valued_depositor, Sample.unsigned_depositor, ?_, by decide +kernel, was,
    Sample.idle "second" "coin" 6 1, s, ⟨⟨by decide +kernel, .inl rfl, fun _ => .inl rfl⟩, ?_⟩,
    done, left, ?_⟩
  · exact ⟨by decide +kernel, by decide +kernel, by decide +kernel, by decide +kernel, by decide⟩
  · show ¬ Underflows ((Position.ofMint Sample.depositor.deposits _ "coin").amount.toRat + _)
    rw [new, Decimal.toRat_zero]
    exact whole.not_underflows
  · rintro ⟨value, kept, restored⟩
    have target := restored.original
    unfold Position.target at target
    rw [new, was] at target
    rcases target with same | ⟨free, -⟩
    · exact absurd (Option.some.inj same) (by decide)
    · cases free

end Obligation

end Lending
