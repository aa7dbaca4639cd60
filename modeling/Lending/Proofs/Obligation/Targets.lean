/-
  Lending.Proofs.Obligation.Targets — which position a leg changes.

  Two searches by token decide about a leg: it is valued and judged by the market's first reserve
  of the token, and changes the obligation's last position in it. Nothing else of the side is
  touched, and what was changed stands under its own reserve. But if several reserves share a
  token, that need not be the reserve by which the leg was valued (`leg_changes_target`). It is
  if the last position in the token is there or there is none, so wherever each token has one
  reserve.
-/
import Lending.Proofs.Obligation.Overdraw

namespace Lending

open Outcome Truncation

/-- The reserve of the position that a leg in a token changes. -/
def Position.target (positions : AddressMap Position) (r : Reserve) (mint : String) : String :=
  (Position.ofMint positions r mint).reserve

theorem Position.target_of_last {positions : AddressMap Position} {mint : String} {p : Position}
    (last : Position.last? positions mint = some p) (r : Reserve) :
    Position.target positions r mint = p.reserve :=
  congrArg Position.reserve (Position.ofMint_of_last last r)

theorem Position.target_of_none {positions : AddressMap Position} {mint : String}
    (none : Position.last? positions mint = none) (r : Reserve) :
    Position.target positions r mint = r.address := by
  unfold target ofMint
  rw [show positions.values.reverse.find? (·.mint == mint) = Option.none from none]
  rfl

/-- The leg changes a position of the reserve that it was valued by exactly if the last position
    in its token is there, or there is none. -/
theorem Position.target_eq_iff {positions : AddressMap Position} {r : Reserve} {mint : String} :
    Position.target positions r mint = r.address ↔
      ∀ p, Position.last? positions mint = some p → p.reserve = r.address := by
  cases last : Position.last? positions mint with
  | none => exact ⟨fun _ _ => nofun, fun _ => Position.target_of_none last r⟩
  | some p =>
    rw [Position.target_of_last last]
    exact ⟨fun same _ own => Option.some.inj own ▸ same, fun same => same p rfl⟩

def Market.Places (m : Market) (positions : AddressMap Position) : Prop :=
  ∀ p ∈ positions.values, ∃ r, m.reserveAt? p.reserve = some r ∧ p.mint = r.mint

theorem Market.Places.target_eq {m : Market} {positions : AddressMap Position}
    (places : m.Places positions) (keyed : m.Keyed) (one : m.OnePerMint) {r : Reserve}
    {mint : String} (found : m.reserveOfMint mint = .ok r) :
    Position.target positions r mint = r.address := by
  refine Position.target_eq_iff.mpr fun p last => ?_
  obtain ⟨listed, same⟩ := Market.mint_of_reserveOfMint found
  obtain ⟨own, there, token⟩ := places p (Position.mem_of_last last)
  have asked : p.mint = mint := by simpa using List.find?_some last
  have equal : own = r := one.reserve_eq (AddressMap.mem_values_of_find? there) listed
    (token.symm.trans (asked.trans same.symm))
  rw [← keyed.address_eq there, equal]

structure ChangesOnly (before after : AddressMap Position) (target : String) (changed : Position) :
    Prop where
  others : after.entries.filter (·.1 ≠ target) = before.entries.filter (·.1 ≠ target)
  entry : after.find? target = some changed
  own_key : changed.reserve = target

theorem ChangesOnly.trans {before after final : AddressMap Position} {target : String}
    {changed left : Position} (first : ChangesOnly before after target changed)
    (second : ChangesOnly after final target left) : ChangesOnly before final target left :=
  ⟨second.others.trans first.others, second.entry, second.own_key⟩

theorem PositionStep.changesOnly {before after : AddressMap Position} {r : Reserve}
    {mint : String} {amount value : Decimal} {changed : Position}
    (step : PositionStep before after r mint amount value changed) :
    ChangesOnly before after (Position.target before r mint) changed := by
  refine ⟨?_, ?_, step.reserve_eq⟩
  · rw [step.entered]
    exact AddressMap.filter_insertEntry _ _ _
  · rw [step.entered, AddressMap.find?_insert]
    exact if_pos rfl

namespace Obligation

/-- What a leg does with the reserve that it is valued and judged by, and to which position. -/
structure TargetStep (o : Obligation) (m : Market) (s s' : Scenario) (leg : Leg) (r : Reserve)
    (amount value : Decimal) (changed : Position) (target : String) : Prop where
  signed_eq : leg.signed = .ok amount
  reserve_eq : m.reserveOfMint leg.mint = .ok r
  deposit : leg.kind.side = .deposits →
    ∃ terms, DepositStep o m s s' amount leg.mint r terms value changed
  borrow : leg.kind.side = .borrows →
    ∃ weight, BorrowStep o m s s' amount leg.mint r weight value changed
  changes : ChangesOnly (s.positions leg.kind.side) (s'.positions leg.kind.side) target changed
  own_iff : target = r.address ↔
    ∀ p, Position.last? (s.positions leg.kind.side) leg.mint = some p → p.reserve = r.address
  own_of_one : m.Keyed → m.OnePerMint → m.Places (s.positions leg.kind.side) → target = r.address

/-- A leg changes one position of its side, in the reserve of the last position in its token. The
    reserve that it is valued and judged by is the market's first of the token. -/
theorem leg_changes_target {o : Obligation} {m : Market} {s s' : Scenario} {leg : Leg}
    (h : o.addLeg m s leg = .ok s') :
    ∃ r amount value changed, o.TargetStep m s s' leg r amount value changed
      (Position.target (s.positions leg.kind.side) r leg.mint) := by
  rw [addLeg_eq] at h
  obtain ⟨amount, signed, h⟩ := bind_eq_ok_iff.mp h
  obtain ⟨r, value, changed, found, position, deposit, borrow⟩ : ∃ r value changed,
      m.reserveOfMint leg.mint = .ok r ∧
      PositionStep (s.positions leg.kind.side) (s'.positions leg.kind.side) r leg.mint amount value
        changed ∧
      (leg.kind.side = .deposits →
        ∃ terms, DepositStep o m s s' amount leg.mint r terms value changed) ∧
      (leg.kind.side = .borrows →
        ∃ weight, BorrowStep o m s s' amount leg.mint r weight value changed) := by
    cases side : leg.kind.side with
    | deposits =>
      rw [side] at h
      obtain ⟨r, terms, value, changed, step⟩ := addDeposit_step h
      exact ⟨r, value, changed, step.reserve_eq, step.position, fun _ => ⟨terms, step⟩, nofun⟩
    | borrows =>
      rw [side] at h
      obtain ⟨r, weight, value, changed, step⟩ := addBorrow_step h
      exact ⟨r, value, changed, step.reserve_eq, step.position, nofun, fun _ => ⟨weight, step⟩⟩
  exact ⟨r, amount, value, changed, signed, found, deposit, borrow, position.changesOnly,
    Position.target_eq_iff, fun keyed one places => places.target_eq keyed one found⟩

end Obligation

namespace Sample

def twins : Market where
  address := "market"
  account := {}
  reserves := ⟨[("first", idle "first" "token" 6 1), ("second", idle "second" "token" 6 2)]⟩

def depositor : Obligation where
  address := "obligation"
  account := {
    market := "market"
    owner := "owner"
    deposits := [{ reserve := "second", depositedAmount := 1000000 }] }
  deposits := ⟨[("second", ⟨"second", "token", ⟨false, 1, 6⟩, 2⟩)]⟩
  borrows := .empty
  stats := {
    totalDeposit := 2
    totalBorrow := 0
    weightedBorrow := 0
    borrowLimit := ⟨false, 16, -1⟩
    liquidationLimit := ⟨false, 17, -1⟩
    borrowUtilization := 0
    netValue := 2
    loanToValue := 0
    liquidationLtv := ⟨false, 85, -2⟩
    leverage := 1 }

def halfToken : Leg := ⟨.deposit, ⟨false, 5, 5⟩, "token"⟩

end Sample

/-- Half a token is deposited: valued by the first reserve at a price of 1, and added to the
    position in the second, where the price is 2. -/
theorem Obligation.leg_changes_target_sample :
    Obligation.value Sample.twins "obligation" Sample.depositor.account none none =
      .ok Sample.depositor ∧
    ∃ s r changed, Sample.depositor.addLeg Sample.twins Sample.depositor.scenario
        Sample.halfToken = .ok s ∧
      Sample.twins.reserveOfMint "token" = .ok r ∧ r.address = "first" ∧
      ChangesOnly Sample.depositor.deposits s.deposits "second" changed ∧
      changed.value.toRat = 5 / 2 := by
  obtain ⟨s, run⟩ := exists_of_isOk (show (Sample.depositor.addLeg Sample.twins
    Sample.depositor.scenario Sample.halfToken).isOk by decide +kernel)
  obtain ⟨r, amount, value, changed, step⟩ := leg_changes_target run
  obtain ⟨terms, deposit⟩ := step.deposit rfl
  cases step.signed_eq
  cases (show Sample.twins.reserveOfMint "token" = .ok (Sample.idle "first" "token" 6 1) by
    decide +kernel).symm.trans step.reserve_eq
  cases (show (Sample.idle "first" "token" 6 1).valueOf ⟨false, 5, 5⟩ = .ok ⟨false, 5, -1⟩ by
    decide +kernel).symm.trans deposit.value_eq
  refine ⟨by decide +kernel, s, _, changed, run, step.reserve_eq, rfl, step.changes, ?_⟩
  rw [deposit.position.value_eq]
  decide +kernel

end Lending
