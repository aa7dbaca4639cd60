/-
  Lending.Proofs.Obligation.Legs — what a run of legs leaves of the totals.

  A total and the positions it stands for are changed by separate computations: each is cut and
  kept from falling below zero by itself. `Follows` bounds how far they are apart by the number
  of cuts made so far, in units of all the value that was there or was moved. A leg that takes
  out no more than its position is worth makes two more cuts (`Follows.step`); so does every leg
  of a run (`Tracks.run`), and valuing an account makes one for each slot
  (`tracks_of_value`).
-/
import Lending.Obligation.Sample
import Lending.Proofs.Obligation.SlotChange
import Lending.Proofs.Obligation.Step

namespace Lending

open Outcome Truncation

/-! ## Positions -/

def worth (positions : AddressMap Position) : ℚ :=
  (positions.values.map (·.value.toRat)).sum

/-- The position of a token stands under its reserve, or no position is in the token. -/
theorem Position.ofMint_cases {positions : AddressMap Position}
    (distinct : positions.addresses.Nodup)
    (keyed : ∀ entry ∈ positions.entries, entry.2.reserve = entry.1) (r : Reserve)
    (mint : String) :
    positions.find? (ofMint positions r mint).reserve = some (ofMint positions r mint) ∨
      ofMint positions r mint = ⟨r.address, mint, 0, 0⟩ ∧
        ∀ p ∈ positions.values, p.mint ≠ mint := by
  unfold ofMint
  cases search : positions.values.reverse.find? (·.mint == mint) with
  | some p =>
    refine .inl ?_
    have listed : p ∈ positions.values := List.mem_reverse.mp (List.mem_of_find?_eq_some search)
    obtain ⟨⟨address, _⟩, entered, rfl⟩ := List.mem_map.mp listed
    rw [Option.getD_some, keyed _ entered]
    exact AddressMap.find?_of_mem distinct entered
  | none =>
    refine .inr ⟨rfl, fun p listed token => ?_⟩
    have missed := List.find?_eq_none.mp search p (List.mem_reverse.mpr listed)
    exact missed (beq_iff_eq.mpr token)

section
variable {before after : AddressMap Position} {r : Reserve} {mint : String}
  {amount value : Decimal} {changed : Position}
  (change : PositionStep before after r mint amount value changed)
include change

theorem PositionStep.distinct (distinct : before.addresses.Nodup) : after.addresses.Nodup := by
  rw [change.entered]
  exact AddressMap.nodup_addresses_insert distinct _ _

theorem PositionStep.keyed (keyed : ∀ entry ∈ before.entries, entry.2.reserve = entry.1) :
    ∀ entry ∈ after.entries, entry.2.reserve = entry.1 := by
  intro entry entered
  rw [change.entered] at entered
  rcases AddressMap.mem_insertEntry entered with rfl | old
  · exact change.reserve_eq
  · exact keyed entry old

theorem PositionStep.mem_values {p : Position} (listed : p ∈ after.values) :
    p = changed ∨ p ∈ before.values := by
  obtain ⟨entry, entered, rfl⟩ := List.mem_map.mp listed
  rw [change.entered] at entered
  rcases AddressMap.mem_insertEntry entered with rfl | old
  · exact .inl rfl
  · exact .inr (List.mem_map_of_mem old)

end

/-- The positions of a side: each under its reserve, in the token that the market has there. -/
structure Holdings (m : Market) (positions : AddressMap Position) : Prop where
  distinct : positions.addresses.Nodup
  keyed : ∀ entry ∈ positions.entries, entry.2.reserve = entry.1
  token : ∀ entry ∈ positions.entries, ∀ r, m.reserveAt? entry.1 = some r → entry.2.mint = r.mint
  nonneg : ∀ p ∈ positions.values, 0 ≤ p.amount.toRat ∧ 0 ≤ p.value.toRat
  exact : ∀ p ∈ positions.values, Representable p.value.toRat

theorem Market.mint_of_reserveOfMint {m : Market} {mint : String} {r : Reserve}
    (h : m.reserveOfMint mint = .ok r) : r ∈ m.reserves.values ∧ r.mint = mint := by
  have found := ofOption_eq_ok_iff.mp h
  refine ⟨List.mem_of_find?_eq_some found, ?_⟩
  simpa using List.find?_some found

namespace Holdings

variable {m : Market} {before after : AddressMap Position} (held : Holdings m before) {r : Reserve}
  {mint : String} (found : m.reserveAt? r.address = some r) (same : r.mint = mint)

include held in
theorem worth_nonneg : 0 ≤ worth before := by
  refine List.sum_nonneg fun x listed => ?_
  obtain ⟨p, entered, rfl⟩ := List.mem_map.mp listed
  exact (held.nonneg p entered).2

include held in
/-- One position is worth no more than all of them. -/
theorem value_le_worth {p : Position} (listed : p ∈ before.values) :
    p.value.toRat ≤ worth before := by
  refine List.single_le_sum (fun x entered => ?_) _ (List.mem_map_of_mem listed)
  obtain ⟨q, held_there, rfl⟩ := List.mem_map.mp entered
  exact (held.nonneg q held_there).2

include held found same

/-- The position of a token is held under its reserve, or is new and empty. -/
theorem ofMint_cases :
    before.find? (Position.ofMint before r mint).reserve = some (Position.ofMint before r mint) ∨
      Position.ofMint before r mint = ⟨r.address, mint, 0, 0⟩ ∧ before.find? r.address = none := by
  rcases Position.ofMint_cases held.distinct held.keyed r mint with known | ⟨new, without⟩
  · exact .inl known
  · refine .inr ⟨new, ?_⟩
    cases taken : before.find? r.address with
    | none => rfl
    | some p =>
      -- a position under this reserve would be in its token
      have token : p.mint = mint :=
        (held.token _ (AddressMap.mem_of_find? taken) r found).trans same
      exact absurd token (without p (AddressMap.mem_values_of_find? taken))

theorem ofMint_bounds :
    0 ≤ (Position.ofMint before r mint).value.toRat ∧
      (Position.ofMint before r mint).value.toRat ≤ worth before ∧
      Representable (Position.ofMint before r mint).value.toRat ∧
      0 ≤ (Position.ofMint before r mint).amount.toRat := by
  rcases held.ofMint_cases found same with known | ⟨new, -⟩
  · have listed := AddressMap.mem_values_of_find? known
    obtain ⟨amount, value⟩ := held.nonneg _ listed
    exact ⟨value, held.value_le_worth listed, held.exact _ listed, amount⟩
  · rw [new]
    simp only [Decimal.toRat_zero]
    exact ⟨le_rfl, held.worth_nonneg, representable_zero, le_rfl⟩

variable {amount value : Decimal} {changed : Position}
  (change : PositionStep before after r mint amount value changed)
include change

/-- The worth of a side changes as that of the position does. -/
theorem worth_step : worth after =
    worth before - (Position.ofMint before r mint).value.toRat + changed.value.toRat := by
  unfold worth
  rw [change.entered, AddressMap.sum_values_insert]
  congr 2
  rcases held.ofMint_cases found same with known | ⟨new, free⟩
  · rw [known]
    rfl
  · rw [new, free]
    exact Decimal.toRat_zero.symm

theorem step : Holdings m after := by
  refine ⟨change.distinct held.distinct, change.keyed held.keyed, ?_, ?_, ?_⟩
  · intro entry entered own there
    rw [change.entered] at entered
    rcases AddressMap.mem_insertEntry entered with rfl | old
    · rw [change.mint_eq]
      rcases held.ofMint_cases found same with known | ⟨new, -⟩
      · exact held.token _ (AddressMap.mem_of_find? known) own there
      · rw [new] at there ⊢
        cases found.symm.trans there
        exact same.symm
    · exact held.token entry old own there
  · intro p listed
    rcases change.mem_values listed with rfl | old
    · rw [change.amount_eq, change.value_eq]
      exact ⟨moved_nonneg _ _, moved_nonneg _ _⟩
    · exact held.nonneg p old
  · intro p listed
    rcases change.mem_values listed with rfl | old
    · rw [change.value_eq]
      exact representable_moved _ _
    · exact held.exact p old

end Holdings

/-! ## A total beside its positions -/

/-- A total is not further from the positions it stands for than so many cuts of `volume`, the
    value that was there or was moved. -/
structure Follows (total : ℚ) (positions : AddressMap Position) (cuts : ℕ) (volume : ℚ) :
    Prop where
  nonneg : 0 ≤ total
  exact : Representable total
  total_le : total ≤ volume
  worth_le : worth positions ≤ volume
  near : |total - worth positions| ≤ cuts * ulp * volume

def Summed (total : ℚ) (positions : AddressMap Position) (count : ℕ) : Prop :=
  ∃ figures : List ℚ, (∀ x ∈ figures, 0 ≤ x ∧ Representable x) ∧ figures.length = count ∧
    total = runningSum figures ∧ worth positions = figures.sum

namespace Summed

variable {total : ℚ} {positions : AddressMap Position} {count : ℕ}
  (summed : Summed total positions count)
include summed

theorem total_le_worth : total ≤ worth positions := by
  obtain ⟨figures, each, rfl, rfl, sum⟩ := summed
  rw [sum]
  exact runningSum_le_sum fun x listed => (each x listed).1

/-- The positions are worth more than the total by no more than two units for each of them. -/
theorem worth_le : worth positions ≤ total * (1 + 2 * count * ulp) := by
  obtain ⟨figures, each, rfl, rfl, sum⟩ := summed
  rw [sum]
  exact sum_le_runningSum (fun x listed => (each x listed).1) fun x listed => (each x listed).2

theorem representable : Representable total := by
  obtain ⟨figures, -, -, rfl, -⟩ := summed
  exact representable_runningSum figures

/-- Summing the figures makes one cut for each. -/
theorem follows : Follows total positions count (worth positions) := by
  have below := summed.total_le_worth
  have exact_total := summed.representable
  obtain ⟨figures, each, rfl, rfl, sum⟩ := summed
  have nonneg : ∀ x ∈ figures, 0 ≤ x := fun x listed => (each x listed).1
  refine ⟨runningSum_nonneg nonneg, exact_total, below, le_rfl, ?_⟩
  rw [abs_sub_comm, abs_of_nonneg (sub_nonneg.mpr below), sum]
  exact sum_sub_runningSum_le nonneg fun x listed => (each x listed).2

end Summed

/-- A total and one of its positions, changed and cut each by itself, are two cuts further
    apart. The floor of the total only brings it nearer, as the positions are not below zero. -/
theorem moved_near {total worth position change cut : ℚ}
    (nonneg : 0 ≤ worth - position + truncate (position + change))
    (total_cut : |truncate (total + change) - (total + change)| ≤ cut)
    (position_cut : |truncate (position + change) - (position + change)| ≤ cut) :
    |moved total change - (worth - position + truncate (position + change))| ≤
      |total - worth| + 2 * cut := by
  have floored := abs_max_sub_max_le_abs (truncate (total + change))
    (worth - position + truncate (position + change)) 0
  rw [max_eq_left nonneg] at floored
  have parts : truncate (total + change) - (worth - position + truncate (position + change)) =
      (truncate (total + change) - (total + change)) + (total - worth) -
        (truncate (position + change) - (position + change)) := by ring
  calc |moved total change - (worth - position + truncate (position + change))|
      ≤ |truncate (total + change) - (worth - position + truncate (position + change))| := floored
    _ ≤ |(truncate (total + change) - (total + change)) + (total - worth)| +
          |truncate (position + change) - (position + change)| := by
        rw [parts]
        exact abs_sub _ _
    _ ≤ |truncate (total + change) - (total + change)| + |total - worth| +
          |truncate (position + change) - (position + change)| :=
        add_le_add_left (abs_add_le _ _) _
    _ ≤ |total - worth| + 2 * cut := by linarith

theorem Follows.step {m : Market} {before after : AddressMap Position} {r : Reserve}
    {mint : String} {amount value : Decimal} {changed : Position} {total volume : ℚ} {cuts : ℕ}
    (follows : Follows total before cuts volume) (held : Holdings m before)
    (found : m.reserveAt? r.address = some r) (same : r.mint = mint)
    (step : PositionStep before after r mint amount value changed)
    (exact : Representable value.toRat)
    (covered : -value.toRat ≤ (Position.ofMint before r mint).value.toRat) :
    Follows (moved total value.toRat) after (cuts + 2) (volume + |value.toRat|) := by
  obtain ⟨p_nonneg, p_le, p_exact, -⟩ := held.ofMint_bounds found same
  have sum := held.worth_step found same step
  have change := step.value_eq
  have after_nonneg := (held.step found same step).worth_nonneg
  have before_nonneg := held.worth_nonneg
  have unit := ulp_pos
  generalize (Position.ofMint before r mint).value.toRat = p at *
  generalize value.toRat = v at *
  have size := abs_le.mp (le_refl |v|)
  have left : 0 ≤ p + v := by linarith
  -- the position keeps a value
  have new : changed.value.toRat = truncate (p + v) := change.trans (moved_of_nonneg left)
  have cut_le := truncate_le left
  have position_cut := (p_exact.onGrid.add exact.onGrid).abs_truncate_sub_le
    (show |p + v| ≤ volume + |v| by
      rw [abs_of_nonneg left]
      linarith [follows.worth_le])
  have total_size : |total + v| ≤ volume + |v| := by
    have := abs_add_le total v
    rw [abs_of_nonneg follows.nonneg] at this
    linarith [follows.total_le]
  have total_cut := (follows.exact.onGrid.add exact.onGrid).abs_truncate_sub_le total_size
  have worth_le : worth after ≤ volume + |v| := by
    rw [sum, new]
    linarith [follows.worth_le]
  refine ⟨moved_nonneg _ _, representable_moved _ _, ?_, worth_le, ?_⟩
  · unfold moved
    refine max_le ?_ (by linarith [follows.nonneg, follows.total_le, abs_nonneg v])
    have upper := (le_abs_self _).trans (abs_truncate_le (total + v))
    linarith
  · have after_eq : worth after = worth before - p + truncate (p + v) := by rw [sum, new]
    rw [after_eq] at after_nonneg ⊢
    have apart := moved_near after_nonneg total_cut position_cut
    have earlier : cuts * ulp * volume ≤ cuts * ulp * (volume + |v|) :=
      mul_le_mul_of_nonneg_left (by linarith [abs_nonneg v]) (by positivity)
    push_cast
    linarith [follows.near]

/-- More cuts are allowed than were made. -/
theorem Follows.wait {total volume : ℚ} {positions : AddressMap Position} {cuts more : ℕ}
    (follows : Follows total positions cuts volume) (held : 0 ≤ worth positions) :
    Follows total positions (cuts + more) volume := by
  refine ⟨follows.nonneg, follows.exact, follows.total_le, follows.worth_le,
    follows.near.trans ?_⟩
  refine mul_le_mul_of_nonneg_right ?_ (held.trans follows.worth_le)
  refine mul_le_mul_of_nonneg_right ?_ ulp_pos.le
  exact_mod_cast Nat.le_add_right cuts more

/-! ## Aggregates -/

structure ObligationStats.Unsigned (s : ObligationStats) : Prop where
  totalDeposit : 0 ≤ s.totalDeposit.toRat
  totalBorrow : 0 ≤ s.totalBorrow.toRat
  weightedBorrow : 0 ≤ s.weightedBorrow.toRat
  borrowLimit : 0 ≤ s.borrowLimit.toRat
  liquidationLimit : 0 ≤ s.liquidationLimit.toRat
  liquidationLtv : 0 ≤ s.liquidationLtv.toRat

theorem ratioOrZero_nonneg {x y ratio : Decimal} (hx : 0 ≤ x.toRat) (hy : 0 ≤ y.toRat)
    (h : Decimal.ratioOrZero x y = .ok ratio) : 0 ≤ ratio.toRat := by
  unfold Decimal.ratioOrZero at h
  split at h
  · cases h
    rw [Decimal.toRat_zero]
  · rw [(div_value h).2]
    exact truncate_nonneg (div_nonneg hx hy)

def ObligationStats.UnsignedOn (s : ObligationStats) : Side → Prop
  | .deposits => 0 ≤ s.totalDeposit.toRat ∧ 0 ≤ s.borrowLimit.toRat ∧
      0 ≤ s.liquidationLimit.toRat ∧ 0 ≤ s.liquidationLtv.toRat
  | .borrows => 0 ≤ s.totalBorrow.toRat ∧ 0 ≤ s.weightedBorrow.toRat

theorem ObligationStats.unsigned_iff {s : ObligationStats} :
    s.Unsigned ↔ s.UnsignedOn .deposits ∧ s.UnsignedOn .borrows :=
  ⟨fun u => ⟨⟨u.totalDeposit, u.borrowLimit, u.liquidationLimit, u.liquidationLtv⟩,
    u.totalBorrow, u.weightedBorrow⟩, fun ⟨⟨total, limit, liquidation, ltv⟩, owed, weighted⟩ =>
    ⟨total, owed, weighted, limit, liquidation, ltv⟩⟩

/-- Whatever the totals of its side were, a leg leaves none of them negative. -/
theorem Obligation.addLeg_unsignedOn {o : Obligation} {m : Market} {s s' : Scenario} {leg : Leg}
    (h : o.addLeg m s leg = .ok s') {side : Side}
    (own : leg.kind.side = side ∨ s.stats.UnsignedOn side) : s'.stats.UnsignedOn side := by
  rw [addLeg_eq] at h
  obtain ⟨amount, -, h⟩ := bind_eq_ok_iff.mp h
  cases changed : leg.kind.side with
  | deposits =>
    rw [changed] at h own
    obtain ⟨r, terms, value, position, step⟩ := addDeposit_step h
    cases side with
    | deposits =>
      have total : 0 ≤ s'.stats.totalDeposit.toRat := step.totalDeposit ▸ moved_nonneg _ _
      have liquidation : 0 ≤ s'.stats.liquidationLimit.toRat :=
        step.liquidationLimit ▸ moved_nonneg _ _
      exact ⟨total, step.borrowLimit ▸ moved_nonneg _ _, liquidation,
        ratioOrZero_nonneg liquidation total step.liquidationLtv⟩
    | borrows =>
      obtain ⟨owed, weighted⟩ := own.resolve_left Side.noConfusion
      exact ⟨step.totalBorrow ▸ owed, step.weightedBorrow ▸ weighted⟩
  | borrows =>
    rw [changed] at h own
    obtain ⟨r, weight, value, position, step⟩ := addBorrow_step h
    cases side with
    | deposits =>
      obtain ⟨total, limit, liquidation, ltv⟩ := own.resolve_left Side.noConfusion
      exact ⟨step.totalDeposit ▸ total, step.borrowLimit ▸ limit,
        step.liquidationLimit ▸ liquidation, step.liquidationLtv ▸ ltv⟩
    | borrows => exact ⟨step.totalBorrow ▸ moved_nonneg _ _, step.weightedBorrow ▸ moved_nonneg _ _⟩

theorem Obligation.addLeg_unsigned {o : Obligation} {m : Market} {s s' : Scenario} {leg : Leg}
    (h : o.addLeg m s leg = .ok s') (unsigned : s.stats.Unsigned) : s'.stats.Unsigned := by
  obtain ⟨deposits, borrows⟩ := ObligationStats.unsigned_iff.mp unsigned
  exact ObligationStats.unsigned_iff.mpr
    ⟨addLeg_unsignedOn h (.inr deposits), addLeg_unsignedOn h (.inr borrows)⟩

/-! ## Runs -/

namespace Leg

def value (m : Market) (leg : Leg) : Outcome Decimal := do
  let amount ← leg.signed
  let r ← m.reserveOfMint leg.mint
  r.valueOf amount

theorem value_of_step {m : Market} {s s' : Scenario} {leg : Leg} {r : Reserve}
    {amount value : Decimal} {changed : Position}
    (step : Obligation.LegStep m s s' leg r amount value changed) : leg.value m = .ok value := by
  unfold Leg.value
  rw [step.signed_eq, step.reserve_eq]
  exact step.value_eq

def volume (m : Market) (side : Side) (leg : Leg) : ℚ :=
  if leg.kind.side = side then
    match leg.value m with
    | .ok value => |value.toRat|
    | .error _ => 0
  else 0

/-- A leg that takes out takes no more than its position is worth. -/
def Covered (m : Market) (s : Scenario) (leg : Leg) : Prop :=
  ∀ amount r value, leg.signed = .ok amount → m.reserveOfMint leg.mint = .ok r →
    r.valueOf amount = .ok value → amount.toRat < 0 →
    -value.toRat ≤ (Position.ofMint (s.positions leg.kind.side) r leg.mint).value.toRat

end Leg

def Obligation.Covers (o : Obligation) (m : Market) : Scenario → List Leg → Prop
  | _, [] => True
  | s, leg :: rest => leg.Covered m s ∧ ∀ s', o.addLeg m s leg = .ok s' → o.Covers m s' rest

theorem Pool.valueOf_nonneg {p : Pool} {amount value : Decimal} (price : 0 ≤ p.oraclePrice.toRat)
    (nonneg : 0 ≤ amount.toRat) (h : p.valueOf amount = .ok value) : 0 ≤ value.toRat := by
  obtain ⟨factor, factor_eq, -, dollars⟩ := valueOf_steps h
  rw [dollars]
  exact scaleBy_nonneg (dollarSteps_nonneg price factor_eq) nonneg

theorem Pool.representable_valueOf {p : Pool} {amount value : Decimal}
    (h : p.valueOf amount = .ok value) : Representable value.toRat := by
  obtain ⟨factor, -, -, dollars⟩ := valueOf_steps h
  rw [dollars]
  exact representable_scaleBy (by simp [dollarSteps]) _

/-- A scenario whose totals follow its positions, side by side, and none of whose figures is
    negative. -/
structure Tracks (m : Market) (s : Scenario) (cuts : Side → ℕ) (volume : Side → ℚ) : Prop where
  holdings : ∀ side, Holdings m (s.positions side)
  follows : ∀ side, Follows (s.total side).toRat (s.positions side) (cuts side) (volume side)
  unsigned : s.stats.Unsigned

section
variable {m : Market} (keyed : m.Keyed) (distinct : m.reserves.addresses.Nodup)
  (prices : ∀ r ∈ m.reserves.values, 0 ≤ r.oraclePrice.toRat)

include keyed distinct prices in
theorem Tracks.leg {o : Obligation} {s s' : Scenario} {leg : Leg} {cuts : Side → ℕ}
    {volume : Side → ℚ} (tracks : Tracks m s cuts volume) (h : o.addLeg m s leg = .ok s')
    (covered : leg.Covered m s) :
    Tracks m s' (fun side => cuts side + 2) fun side => volume side + leg.volume m side := by
  obtain ⟨r, amount, value, changed, step⟩ := Obligation.addLeg_step h
  obtain ⟨listed, same⟩ := Market.mint_of_reserveOfMint step.reserve_eq
  have found := keyed.reserveAt_address distinct listed
  have value_eq := Leg.value_of_step step
  have left : -value.toRat ≤
      (Position.ofMint (s.positions leg.kind.side) r leg.mint).value.toRat := by
    rcases lt_or_ge amount.toRat 0 with out | into
    · exact covered amount r value step.signed_eq step.reserve_eq step.value_eq out
    · have gained := Pool.valueOf_nonneg (prices r listed) into step.value_eq
      obtain ⟨nonneg, -⟩ := (tracks.holdings leg.kind.side).ofMint_bounds found same
      linarith
  refine ⟨fun side => ?_, fun side => ?_, Obligation.addLeg_unsigned h tracks.unsigned⟩
  · by_cases own : leg.kind.side = side
    · subst own
      exact (tracks.holdings _).step found same step.position
    · rw [(step.others side own).1]
      exact tracks.holdings side
  · unfold Leg.volume
    by_cases own : leg.kind.side = side
    · subst own
      rw [if_pos rfl, value_eq, step.total]
      exact (tracks.follows _).step (tracks.holdings _) found same step.position
        (Pool.representable_valueOf step.value_eq) left
    · obtain ⟨positions, total⟩ := step.others side own
      rw [if_neg own, add_zero, positions, total]
      exact (tracks.follows side).wait (tracks.holdings side).worth_nonneg

include keyed distinct prices in
theorem Tracks.run {o : Obligation} {s s' : Scenario} {legs : List Leg} {cuts : Side → ℕ}
    {volume : Side → ℚ} (tracks : Tracks m s cuts volume) (h : o.addLegs m s legs = .ok s')
    (covered : o.Covers m s legs) :
    Tracks m s' (fun side => cuts side + 2 * legs.length)
      fun side => volume side + (legs.map (Leg.volume m side)).sum := by
  induction legs generalizing s cuts volume with
  | nil =>
    cases h
    simpa using tracks
  | cons leg rest ih =>
    unfold Obligation.addLegs at h
    rw [List.foldlM_cons] at h
    obtain ⟨next, first, later⟩ := bind_eq_ok_iff.mp h
    have after := ih (tracks.leg keyed distinct prices first covered.1) later
      (covered.2 next first)
    simp only [List.map_cons, List.sum_cons, List.length_cons, Nat.mul_add_one, ← add_assoc]
    simpa only [add_assoc, add_comm (2 * rest.length)] using after

/-- The figures of valued slots: each position is under its reserve, and the running sum is the
    total of them. -/
theorem summed_of_slots {σ τ : Type} {reserve : σ → String} {f : σ → Outcome (τ × Position)}
    {slots : List σ} {vs : List (τ × Position)} (keyed : m.Keyed) (placed : PlacedIn m reserve f)
    (apart : (slots.map reserve).Nodup) (valued : slots.mapM f = .ok vs)
    (exact : ∀ s v, f s = .ok v → Representable v.2.value.toRat)
    (nonneg : ∀ p ∈ (positionMap (vs.map (·.2))).values, 0 ≤ p.amount.toRat ∧ 0 ≤ p.value.toRat) :
    Holdings m (positionMap (vs.map (·.2))) ∧
      Summed (runningSum (vs.map fun v => v.2.value.toRat)) (positionMap (vs.map (·.2)))
        slots.length := by
  have own : ((vs.map (·.2)).map (·.reserve)).Nodup := by
    rw [placed.reserves keyed valued]
    exact apart
  have exact_listed : ∀ p ∈ vs.map (·.2), Representable p.value.toRat := by
    intro p listed
    obtain ⟨v, entered, rfl⟩ := List.mem_map.mp listed
    obtain ⟨s, -, worked_out⟩ := exists_of_mem_mapM valued entered
    exact exact s v worked_out
  have values := values_positionMap own
  rw [values] at nonneg
  constructor
  · refine ⟨?_, ?_, ?_, by rwa [values], by rwa [values]⟩
    · unfold AddressMap.addresses
      rwa [entries_positionMap own, List.map_map]
    · intro entry entered
      rw [entries_positionMap own] at entered
      obtain ⟨p, -, rfl⟩ := List.mem_map.mp entered
      rfl
    · intro entry entered r found
      rw [entries_positionMap own] at entered
      obtain ⟨p, listed, rfl⟩ := List.mem_map.mp entered
      obtain ⟨v, entry, rfl⟩ := List.mem_map.mp listed
      obtain ⟨s, -, worked_out⟩ := exists_of_mem_mapM valued entry
      obtain ⟨own, there, -, mint⟩ := placed s v worked_out
      rw [placed.reserve_eq keyed worked_out] at found
      cases there.symm.trans found
      exact mint
  · refine ⟨vs.map fun v => v.2.value.toRat, fun x listed => ?_, ?_, rfl, ?_⟩
    · obtain ⟨v, entered, rfl⟩ := List.mem_map.mp listed
      have entered := List.mem_map_of_mem (f := (·.2)) entered
      exact ⟨(nonneg v.2 entered).2, exact_listed v.2 entered⟩
    · rw [List.length_map]
      exact (mapM_eq_ok_iff.mp valued).length_eq.symm
    · unfold worth
      rw [values, List.map_map]
      rfl

end

def ObligationAccount.slotCount (a : ObligationAccount) : Side → ℕ
  | .deposits => a.usedDeposits.length
  | .borrows => a.usedBorrows.length

structure Scenario.Unsigned (s : Scenario) : Prop where
  stats : s.stats.Unsigned
  positions : ∀ side, ∀ p ∈ (s.positions side).values, 0 ≤ p.amount.toRat ∧ 0 ≤ p.value.toRat

theorem Scenario.unsigned_sample : Sample.obligation.scenario.Unsigned := by
  refine ⟨⟨by decide +kernel, by decide +kernel, by decide +kernel, by decide +kernel,
    by decide +kernel, by decide +kernel⟩, ?_⟩
  rintro (_ | _) <;> decide +kernel

section
variable {m : Market} {cr br : Option RateMap} {o : Obligation} (keyed : m.Keyed)
  (valued : Obligation.value m o.address o.account cr br = .ok o)
  (deposits : (o.account.usedDeposits.map (·.reserve)).Nodup)
  (borrows : (o.account.usedBorrows.map (·.reserve)).Nodup) (unsigned : o.scenario.Unsigned)
include keyed valued deposits borrows unsigned

theorem summed_of_value (side : Side) : Holdings m (o.scenario.positions side) ∧
    Summed (o.scenario.total side).toRat (o.scenario.positions side)
      (o.account.slotCount side) := by
  obtain ⟨-, ds, bs, hds, hbs, sums⟩ := Obligation.value_sums valued
  have nonneg := unsigned.positions side
  cases side with
  | deposits =>
    simp only [Obligation.scenario, Scenario.positions, Scenario.total, sums.deposits,
      sums.totalDeposit] at nonneg ⊢
    exact summed_of_slots keyed (placedIn_collateral m _ cr) deposits hds
      (fun _ _ h => CollateralSlot.representable_value h) nonneg
  | borrows =>
    simp only [Obligation.scenario, Scenario.positions, Scenario.total, sums.borrows,
      sums.totalBorrow] at nonneg ⊢
    exact summed_of_slots keyed (placedIn_debt m _ br) borrows hbs
      (fun _ _ h => DebtSlot.representable_value h) nonneg

theorem tracks_of_value :
    Tracks m o.scenario o.account.slotCount fun side => worth (o.scenario.positions side) := by
  have summed := summed_of_value keyed valued deposits borrows unsigned
  exact ⟨fun side => (summed side).1, fun side => (summed side).2.follows, unsigned.stats⟩

/-- After any run of legs that take out no more than the positions are worth, each total is as
    near to the sum of its positions as one cut for each slot and two for each leg leave it. -/
theorem totals_follow_positions (distinct : m.reserves.addresses.Nodup)
    (prices : ∀ r ∈ m.reserves.values, 0 ≤ r.oraclePrice.toRat) {legs : List Leg} {s : Scenario}
    (run : o.addLegs m o.scenario legs = .ok s) (covered : o.Covers m o.scenario legs) :
    (∀ side, |(s.total side).toRat - worth (s.positions side)| ≤
      (o.account.slotCount side + 2 * legs.length) / 10 ^ 39 *
        (worth (o.scenario.positions side) + (legs.map (Leg.volume m side)).sum)) ∧
    s.Unsigned := by
  have start := tracks_of_value keyed valued deposits borrows unsigned
  have final := start.run keyed distinct prices run covered
  refine ⟨fun side => ?_, final.unsigned, fun side => (final.holdings side).nonneg⟩
  have near := (final.follows side).near
  have unit : ulp = 1 / 10 ^ 39 := by norm_num [ulp]
  rw [unit, ← mul_div_assoc, mul_one] at near
  push_cast at near
  exact near

end

def Sample.legs : List Leg :=
  [⟨.withdraw, 1000000, "token"⟩, ⟨.borrow, 100000, "token"⟩, ⟨.deposit, 1500000, "token"⟩]

theorem totals_follow_positions_sample :
    ∃ s, Sample.obligation.addLegs Sample.market Sample.obligation.scenario Sample.legs = .ok s ∧
      (∀ side, |(s.total side).toRat - worth (s.positions side)| ≤
        (Sample.borrower.slotCount side + 2 * Sample.legs.length) / 10 ^ 39 *
          (worth (Sample.obligation.scenario.positions side) +
            (Sample.legs.map (Leg.volume Sample.market side)).sum)) ∧
      s.Unsigned := by
  obtain ⟨s, run⟩ := exists_of_isOk (show (Sample.obligation.addLegs Sample.market
    Sample.obligation.scenario Sample.legs).isOk by decide +kernel)
  have unsigned := Scenario.unsigned_sample
  have covered : Sample.obligation.Covers Sample.market Sample.obligation.scenario
      Sample.legs := by
    refine ⟨?_, fun s' _ => ⟨?_, fun s'' _ => ⟨?_, fun _ _ => trivial⟩⟩⟩
    · intro amount r value signed found worth_eq _
      cases (show Leg.signed ⟨.withdraw, 1000000, "token"⟩ = .ok ⟨true, 1, 6⟩ by
        decide +kernel).symm.trans signed
      cases (show Sample.market.reserveOfMint "token" = .ok Sample.reserve by
        decide +kernel).symm.trans found
      cases (show Sample.reserve.valueOf ⟨true, 1, 6⟩ = .ok ⟨true, 1, 0⟩ by
        decide +kernel).symm.trans worth_eq
      decide +kernel
    · intro amount r value signed _ _ out
      cases signed
      exact absurd out (by decide +kernel)
    · intro amount r value signed _ _ out
      cases signed
      exact absurd out (by decide +kernel)
  have valued : Obligation.value Sample.market "obligation" Sample.borrower none none =
      .ok Sample.obligation := by decide +kernel
  exact ⟨s, run, totals_follow_positions (by decide) valued (by decide) (by decide) unsigned
    (by decide) (by decide +kernel) run covered⟩

end Lending
