/-
  Lending.Proofs.Obligation.Idle — actions on no amount.

  The figures of a valued obligation are kept as they are when nothing is added to them: neither
  the cuts nor the floors take anything off (`Figure.moved_zero`). So a run of legs that move
  nothing leaves the totals (`Idle.totals`) and the positions, beside which there may be empty
  ones (`Padded`). An empty position takes the place of one in another token if the market now
  has the leg's token at that address (`renamed_reserve_empties`).
-/
import Lending.Proofs.Obligation.Settled

namespace Lending

open Outcome Truncation

/-! ## Positions -/

namespace Position.Same

theorem refl (p : Position) : p.Same p := ⟨rfl, rfl, rfl, rfl⟩

theorem trans {p q r : Position} (h : p.Same q) (h' : q.Same r) : p.Same r :=
  ⟨h.reserve.trans h'.reserve, h.mint.trans h'.mint, h.amount.trans h'.amount,
    h.value.trans h'.value⟩

end Position.Same

theorem Position.Empty.same {p q : Position} {address : String} (empty : p.Empty address)
    (same : p.Same q) : q.Empty address :=
  ⟨same.reserve.symm.trans empty.reserve, same.amount.symm.trans empty.amount,
    same.value.symm.trans empty.value⟩

/-- The positions in their order, and after them no other than empty ones in further reserves. -/
structure Padded (base after : AddressMap Position) : Prop where
  distinct : after.addresses.Nodup
  order : base.addresses <+: after.addresses
  kept : ∀ address p, base.find? address = some p →
    ∃ p', after.find? address = some p' ∧ p.Same p'
  added : ∀ address p', base.find? address = none → after.find? address = some p' →
    p'.Empty address

namespace Padded

theorem refl {base : AddressMap Position} (filed : Filed base) : Padded base base :=
  ⟨filed.distinct, List.prefix_rfl, fun _ p found => ⟨p, found, .refl p⟩,
    fun _ _ none found => nomatch none.symm.trans found⟩

variable {base after next : AddressMap Position} (filed : Filed base) (padded : Padded base after)
include filed padded

theorem filed_after : Filed after := by
  have each : ∀ address p', after.find? address = some p' → p'.reserve = address ∧
      Figure p'.amount.toRat ∧ Figure p'.value.toRat := by
    intro address p' found
    cases known : base.find? address with
    | some p =>
      obtain ⟨own, there, same⟩ := padded.kept address p known
      cases there.symm.trans found
      have entered := AddressMap.mem_of_find? known
      rw [← same.reserve, ← same.amount, ← same.value]
      exact ⟨filed.keyed _ entered, filed.figures p (List.mem_map_of_mem entered)⟩
    | none =>
      have empty := padded.added address p' known found
      rw [empty.amount, empty.value]
      exact ⟨empty.reserve, figure_zero, figure_zero⟩
  refine ⟨padded.distinct, fun entry entered => ?_, fun p listed => ?_⟩
  · exact (each _ _ (AddressMap.find?_of_mem padded.distinct entered)).1
  · obtain ⟨entry, entered, rfl⟩ := List.mem_map.mp listed
    exact (each _ _ (AddressMap.find?_of_mem padded.distinct entered)).2

variable {m : Market} {r : Reserve} {mint : String}

/-- The position of a token is what there was in its reserve, or empty if there was none. -/
theorem ofMint (recognized : m.Recognizes base mint) (found : m.reserveOfMint mint = .ok r) :
    (∀ p, base.find? (Position.ofMint after r mint).reserve = some p →
      p.Same (Position.ofMint after r mint)) ∧
    (base.find? (Position.ofMint after r mint).reserve = none →
      (Position.ofMint after r mint).Empty (Position.ofMint after r mint).reserve) := by
  have placed := padded.filed_after filed
  rcases Position.ofMint_cases placed.distinct placed.keyed r mint with known | ⟨new, without⟩
  · refine ⟨fun p there => ?_, fun none => padded.added _ _ none known⟩
    obtain ⟨p', own, same⟩ := padded.kept _ p there
    cases own.symm.trans known
    exact same
  · rw [new]
    refine ⟨fun p there => ?_, fun _ => ⟨rfl, Decimal.toRat_zero, Decimal.toRat_zero⟩⟩
    -- a position there would be in the token, and still be found
    obtain ⟨p', own, same⟩ := padded.kept _ p there
    have token := same.mint.symm.trans (recognized r p found there)
    exact absurd token (without p' (AddressMap.mem_values_of_find? own))

theorem step {amount value : Decimal} {changed : Position} (recognized : m.Recognizes base mint)
    (found : m.reserveOfMint mint = .ok r)
    (change : PositionStep after next r mint amount value changed) (nothing : amount.toRat = 0)
    (worthless : value.toRat = 0) : Padded base next := by
  obtain ⟨amount_figure, value_figure⟩ := (padded.filed_after filed).ofMint_figures r mint
  have unchanged : (Position.ofMint after r mint).Same changed := by
    refine ⟨change.reserve_eq.symm, change.mint_eq.symm, ?_, ?_⟩
    · rw [change.amount_eq, nothing, amount_figure.moved_zero]
    · rw [change.value_eq, worthless, value_figure.moved_zero]
  obtain ⟨was, new⟩ := padded.ofMint filed recognized found
  rw [change.entered]
  refine ⟨AddressMap.nodup_addresses_insert padded.distinct _ _,
    padded.order.trans (AddressMap.addresses_prefix_insert _ _ _), ?_, ?_⟩
  · intro address p there
    rw [AddressMap.find?_insert]
    split
    · rename_i own
      exact ⟨changed, rfl, (was p (own ▸ there)).trans unchanged⟩
    · exact padded.kept address p there
  · intro address p' none there
    rw [AddressMap.find?_insert] at there
    split at there
    · rename_i own
      cases there
      rw [own] at none ⊢
      exact (new none).same unchanged
    · exact padded.added address p' none there

end Padded

/-! ## Legs -/

theorem Leg.signed_of_nothing {leg : Leg} {amount : Decimal} (nothing : leg.amount.toRat = 0)
    (h : leg.signed = .ok amount) : amount.toRat = 0 := by
  obtain ⟨kind, x, mint⟩ := leg
  have negated (h : x.negated = .ok amount) : amount.toRat = 0 := by
    rw [negated_value h, show x.toRat = 0 from nothing, truncate_zero, neg_zero]
  cases kind
  · cases h
    exact nothing
  · exact negated h
  · cases h
    exact nothing
  · exact negated h

theorem Pool.valueOf_nothing {p : Pool} {amount value : Decimal} (nothing : amount.toRat = 0)
    (h : p.valueOf amount = .ok value) : value.toRat = 0 := by
  obtain ⟨factor, -, -, dollars⟩ := valueOf_steps h
  rw [dollars, nothing, scaleBy_zero]

structure Idle (base s : Scenario) : Prop where
  totals : base.stats.SameTotals s.stats
  positions : ∀ side, Padded (base.positions side) (s.positions side)

section
variable {o : Obligation} {m : Market} {base s s' : Scenario} {leg : Leg}

theorem ObligationStats.SameTotals.refl (s : ObligationStats) : s.SameTotals s :=
  ⟨rfl, rfl, rfl, rfl, rfl, rfl, rfl⟩

/-- A leg that moves nothing takes nothing off the totals. -/
theorem ObligationStats.SameTotals.addLeg (same : base.stats.SameTotals s.stats)
    (settled : base.stats.Settled) (unsigned : base.stats.Unsigned)
    (nothing : leg.amount.toRat = 0) (h : o.addLeg m s leg = .ok s') :
    base.stats.SameTotals s'.stats := by
  have kept {x y : ℚ} (exact : Representable x) (nonneg : 0 ≤ x) (same : x = y) :
      x = moved y 0 := by
    rw [← same]
    exact (Figure.moved_zero ⟨exact, nonneg⟩).symm
  rw [Obligation.addLeg_eq] at h
  obtain ⟨amount, signed, h⟩ := bind_eq_ok_iff.mp h
  have still := Leg.signed_of_nothing nothing signed
  cases side : leg.kind.side with
  | deposits =>
    rw [side] at h
    obtain ⟨r, terms, value, changed, step⟩ := Obligation.addDeposit_step h
    have total := step.totalDeposit
    have limit := step.borrowLimit
    have liquidation := step.liquidationLimit
    rw [Pool.valueOf_nothing still step.value_eq] at total limit liquidation
    rw [zero_mul, truncate_zero] at limit liquidation
    have same_total := (kept settled.totalDeposit.exact unsigned.totalDeposit
      same.totalDeposit).trans total.symm
    have same_limit := (kept settled.borrowLimit.exact unsigned.borrowLimit
      same.borrowLimit).trans limit.symm
    have same_liquidation := (kept settled.liquidationLimit.exact unsigned.liquidationLimit
      same.liquidationLimit).trans liquidation.symm
    obtain ⟨ratio, given, same_ratio⟩ :=
      exists_ratioOrZero_congr same_liquidation same_total settled.liquidationLtv
    cases given.symm.trans step.liquidationLtv
    have others := congrArg ObligationStats.potentialGroups (Obligation.addDeposit_keeps h)
    exact ⟨same_total, step.totalBorrow ▸ same.totalBorrow,
      step.weightedBorrow ▸ same.weightedBorrow, same_limit, same_liquidation, same_ratio,
      same.potentialGroups.trans others.symm⟩
  | borrows =>
    rw [side] at h
    obtain ⟨r, weight, value, changed, step⟩ := Obligation.addBorrow_step h
    have total := step.totalBorrow
    have weighted := step.weightedBorrow
    rw [Pool.valueOf_nothing still step.value_eq] at total weighted
    rw [zero_mul, truncate_zero] at weighted
    have others := congrArg ObligationStats.potentialGroups (Obligation.addBorrow_keeps h)
    have same_total := (kept settled.totalBorrow.exact unsigned.totalBorrow
      same.totalBorrow).trans total.symm
    have same_weighted := (kept settled.weightedBorrow.exact unsigned.weightedBorrow
      same.weightedBorrow).trans weighted.symm
    exact ⟨step.totalDeposit ▸ same.totalDeposit, same_total, same_weighted,
      step.borrowLimit ▸ same.borrowLimit, step.liquidationLimit ▸ same.liquidationLimit,
      step.liquidationLtv ▸ same.liquidationLtv, same.potentialGroups.trans others.symm⟩

variable (settled : base.stats.Settled) (unsigned : base.stats.Unsigned)
  (filed : ∀ side, Filed (base.positions side))
include settled unsigned filed

theorem Idle.addLeg (idle : Idle base s) (nothing : leg.amount.toRat = 0)
    (recognized : m.Recognizes (base.positions leg.kind.side) leg.mint)
    (h : o.addLeg m s leg = .ok s') : Idle base s' := by
  refine ⟨idle.totals.addLeg settled unsigned nothing h, fun side => ?_⟩
  obtain ⟨r, amount, value, changed, step⟩ := Obligation.addLeg_step h
  have still := Leg.signed_of_nothing nothing step.signed_eq
  by_cases own : leg.kind.side = side
  · subst own
    exact (idle.positions _).step (filed _) recognized step.reserve_eq step.position still
      (Pool.valueOf_nothing still step.value_eq)
  · rw [(step.others side own).1]
    exact idle.positions side

/-- However many legs move nothing, nothing is moved. -/
theorem Idle.addLegs {legs : List Leg} (idle : Idle base s)
    (nothing : ∀ leg ∈ legs, leg.amount.toRat = 0)
    (recognized : ∀ leg ∈ legs, m.Recognizes (base.positions leg.kind.side) leg.mint)
    (h : o.addLegs m s legs = .ok s') : Idle base s' := by
  induction legs generalizing s with
  | nil =>
    cases h
    exact idle
  | cons leg rest ih =>
    rw [Obligation.addLegs_cons] at h
    obtain ⟨next, first, later⟩ := bind_eq_ok_iff.mp h
    obtain ⟨first_nothing, rest_nothing⟩ := List.forall_mem_cons.mp nothing
    obtain ⟨first_recognized, rest_recognized⟩ := List.forall_mem_cons.mp recognized
    exact ih (idle.addLeg settled unsigned filed first_nothing first_recognized first) rest_nothing
      rest_recognized later

end

/-! ## Actions -/

theorem ObligationRequest.legs_nothing {q : ObligationRequest} {action : Action}
    {legs : List Leg} (nothing : q.amount.toRat = 0)
    (outflow : ∀ x, q.outflow = some x → x.toRat = 0) (h : q.legs action = .ok legs) :
    ∀ leg ∈ legs, leg.amount.toRat = 0 := by
  have second : (q.outflow.getD q.amount).toRat = 0 := by
    cases given : q.outflow with
    | none => exact nothing
    | some x => exact outflow x given
  cases action <;> cases h <;> simp [nothing, second]

def Obligation.Recognized (o : Obligation) (m : Market) (q : ObligationRequest) : Prop :=
  ∀ action legs, q.action.resolve = .ok action → q.legs action = .ok legs →
    ∀ leg ∈ legs, m.Recognizes (o.scenario.positions leg.kind.side) leg.mint

/-- An obligation's own market recognizes every request. -/
theorem Obligation.recognized_of_value {m : Market} {cr br : Option RateMap} {o : Obligation}
    (keyed : m.Keyed) (distinct : m.reserves.addresses.Nodup)
    (valued : value m o.address o.account cr br = .ok o) (unsigned : o.scenario.Unsigned)
    (q : ObligationRequest) : o.Recognized m q := by
  intro action legs _ _ leg _
  have filed := Valued.filed ⟨m, cr, br, valued⟩ unsigned leg.kind.side
  exact (places_of_value keyed valued leg.kind.side).recognizes keyed distinct filed.keyed leg.mint

/-- Working out the ratios of a valued obligation anew gives the same ratios, and an action on
    no amount gives the same figures and positions. -/
theorem idle_action {o : Obligation} (valued : o.Valued) :
    o.stats.refresh = .ok o.stats ∧
    (o.scenario.Unsigned → ∀ m q s, q.amount.toRat = 0 →
      (∀ x, q.outflow = some x → x.toRat = 0) → o.Recognized m q → o.simulate m q = .ok s →
      o.stats.Same s.stats ∧
        ∀ side, Padded (o.scenario.positions side) (s.positions side)) := by
  have settled := valued.settled
  refine ⟨settled.refreshed, fun unsigned m q s nothing outflow recognized h => ?_⟩
  have filed := valued.filed unsigned
  unfold Obligation.simulate at h
  simp only [bind_eq_ok_iff] at h
  obtain ⟨action, resolved, legs, listed, final, run, stats, refreshed, h⟩ := h
  cases h
  have start : Idle o.scenario o.scenario := ⟨.refl _, fun side => .refl (filed side)⟩
  have idle := start.addLegs settled unsigned.stats filed
    (ObligationRequest.legs_nothing nothing outflow listed) (recognized action legs resolved listed)
    run
  obtain ⟨again, given, same⟩ := idle.totals.refresh settled settled.refreshed
  cases given.symm.trans refreshed
  exact ⟨same, idle.positions⟩

theorem idle_action_sample :
    Sample.obligation.stats.refresh = .ok Sample.obligation.stats ∧
    ∃ s, Sample.obligation.simulate Sample.market (Sample.request "depositAndBorrow" 0 "token") =
        .ok s ∧
      Sample.obligation.stats.Same s.stats ∧
      ∀ side, Padded (Sample.obligation.scenario.positions side) (s.positions side) := by
  obtain ⟨s, simulated⟩ := exists_of_isOk (show (Sample.obligation.simulate Sample.market
    (Sample.request "depositAndBorrow" 0 "token")).isOk by decide +kernel)
  have unsigned := Scenario.unsigned_sample
  have valued : Obligation.value Sample.market "obligation" Sample.borrower none none =
      .ok Sample.obligation := by decide +kernel
  have recognized := Obligation.recognized_of_value (by decide) (by decide) valued unsigned
    (Sample.request "depositAndBorrow" 0 "token")
  obtain ⟨refreshed, idle⟩ := idle_action Obligation.valued_sample
  refine ⟨refreshed, s, simulated, idle unsigned Sample.market _ s Decimal.toRat_zero ?_
    recognized simulated⟩
  rintro x ⟨⟩

namespace Sample

/-- The second of the twins, for another token. -/
def renamed : Market where
  address := "market"
  account := {}
  reserves := ⟨[("second", idle "second" "coin" 6 1)]⟩

theorem valued_depositor : depositor.Valued := ⟨twins, none, none, by decide +kernel⟩

theorem unsigned_depositor : depositor.scenario.Unsigned := by
  refine ⟨⟨by decide +kernel, by decide +kernel, by decide +kernel, by decide +kernel,
    by decide +kernel, by decide +kernel⟩, ?_⟩
  rintro (_ | _) <;> decide +kernel

end Sample

/-- No position is in the token, so a deposit of nothing enters an empty one: where the market
    has the token now, and the deposit in another token was. -/
theorem renamed_reserve_empties :
    Sample.depositor.Valued ∧ Sample.depositor.scenario.Unsigned ∧
    Sample.depositor.deposits.find? "second" = some ⟨"second", "token", ⟨false, 1, 6⟩, 2⟩ ∧
    ∃ s, Sample.depositor.simulate Sample.renamed (Sample.request "deposit" 0 "coin") = .ok s ∧
      s.deposits.find? "second" = some ⟨"second", "coin", 0, 0⟩ ∧
      ¬ Padded (Sample.depositor.scenario.positions .deposits) (s.positions .deposits) := by
  have was : Sample.depositor.deposits.find? "second" =
      some ⟨"second", "token", ⟨false, 1, 6⟩, 2⟩ := by decide
  obtain ⟨s, simulated, left⟩ := map_eq_ok_iff.mp (show (·.deposits.find? "second") <$>
    Sample.depositor.simulate Sample.renamed (Sample.request "deposit" 0 "coin") =
      .ok (some ⟨"second", "coin", 0, 0⟩) by decide +kernel)
  refine ⟨Sample.valued_depositor, Sample.unsigned_depositor, was, s, simulated, left,
    fun padded => ?_⟩
  obtain ⟨p, found, same⟩ := padded.kept "second" _ was
  cases found.symm.trans left
  exact absurd same.mint (by decide)

end Lending
