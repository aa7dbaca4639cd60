/-
  Lending.Proofs.Obligation.Displaced — the positions of an obligation against its totals.

  Every used slot counts in the totals, and of the slots that name one reserve the last is kept
  as the position there. While no two name the same, the totals are the sums over the positions.
  Otherwise they are more, by what the displaced positions are worth (`totals_tallied`); the
  positions then show less than the obligation holds or owes.
-/
import Lending.Proofs.Obligation.Legs

namespace Lending

open Outcome Truncation

def Market.slotPositions (m : Market) (a : ObligationAccount) (cr br : Option RateMap) :
    Side → Outcome (List Position)
  | .deposits =>
    List.map (·.2) <$> a.usedDeposits.mapM (CollateralSlot.valued m a.elevationGroup cr)
  | .borrows => List.map (·.2) <$> a.usedBorrows.mapM (DebtSlot.valued m a.elevationGroup br)

def ObligationAccount.slotReserves (a : ObligationAccount) : Side → List String
  | .deposits => a.usedDeposits.map (·.reserve)
  | .borrows => a.usedBorrows.map (·.reserve)

def displacedPositions (ps : List Position) : List Position :=
  AddressMap.displaced .empty (ps.map fun p => (p.reserve, p))

def worthOf (ps : List Position) : ℚ := (ps.map (·.value.toRat)).sum

/-- Kept and displaced positions are worth as much as all of them. -/
theorem worth_positionMap_add_displaced (ps : List Position) :
    worth (positionMap ps) + worthOf (displacedPositions ps) = worthOf ps := by
  have same := AddressMap.perm_displaced (ps.map fun p => (p.reserve, p))
  rw [List.map_map] at same
  have sums := (same.map fun p : Position => p.value.toRat).sum_eq
  rw [List.map_append, List.sum_append, List.map_map, add_comm] at sums
  exact sums

/-- A total of a side that counts every slot, against the positions that are kept of them. -/
structure Tallied (m : Market) (reserves : List String) (ps : List Position)
    (positions : AddressMap Position) (total : ℚ) : Prop where
  positions_eq : positions = positionMap ps
  total_eq : total = runningSum (ps.map (·.value.toRat))
  apart : m.Keyed → reserves.Nodup → total = runningSum (positions.values.map (·.value.toRat))
  counted : (∀ p ∈ ps, 0 ≤ p.value.toRat) →
    total ≤ worth positions + worthOf (displacedPositions ps) ∧
      worth positions + worthOf (displacedPositions ps) ≤ total * (1 + 2 * ps.length * ulp)
  hidden : (∀ p ∈ ps, 0 ≤ p.value.toRat) →
    total * (2 * ps.length * ulp) < worthOf (displacedPositions ps) →
    runningSum (positions.values.map (·.value.toRat)) < total

theorem tallied_positionMap {m : Market} {reserves : List String} {ps : List Position}
    (own : m.Keyed → ps.map (·.reserve) = reserves)
    (exact : ∀ p ∈ ps, Representable p.value.toRat) :
    Tallied m reserves ps (positionMap ps) (runningSum (ps.map (·.value.toRat))) := by
  have together := worth_positionMap_add_displaced ps
  have exact_figures : ∀ x ∈ ps.map (·.value.toRat), Representable x :=
    List.forall_mem_map.mpr exact
  have counted : (∀ p ∈ ps, 0 ≤ p.value.toRat) →
      worthOf ps ≤ runningSum (ps.map (·.value.toRat)) * (1 + 2 * ps.length * ulp) := by
    intro nonneg
    have lost := sum_le_runningSum (List.forall_mem_map.mpr nonneg) exact_figures
    rwa [List.length_map] at lost
  refine ⟨rfl, rfl, fun keyed distinct => ?_, fun nonneg => ?_, fun nonneg more => ?_⟩
  · rw [values_positionMap (own keyed ▸ distinct)]
  · rw [together]
    exact ⟨runningSum_le_sum (List.forall_mem_map.mpr nonneg), counted nonneg⟩
  · -- the sum over the positions is at most what they are worth, without the displaced ones
    have kept_nonneg : ∀ p ∈ (positionMap ps).values, 0 ≤ p.value.toRat :=
      fun p held => nonneg p (mem_of_mem_positionMap held)
    calc runningSum ((positionMap ps).values.map (·.value.toRat))
        ≤ worth (positionMap ps) := runningSum_le_sum (List.forall_mem_map.mpr kept_nonneg)
      _ = worthOf ps - worthOf (displacedPositions ps) := by rw [← together, add_sub_cancel_right]
      _ < runningSum (ps.map (·.value.toRat)) := by linarith [counted nonneg]

theorem tallied_of_slots {m : Market} {σ τ : Type} {reserve : σ → String}
    {f : σ → Outcome (τ × Position)} {slots : List σ} {vs : List (τ × Position)}
    (placed : PlacedIn m reserve f) (exact : ∀ s v, f s = .ok v → Representable v.2.value.toRat)
    (valued : slots.mapM f = .ok vs) :
    Tallied m (slots.map reserve) (vs.map (·.2)) (positionMap (vs.map (·.2)))
      (runningSum (vs.map fun v => v.2.value.toRat)) := by
  have listed : ∀ p ∈ vs.map (·.2), Representable p.value.toRat := by
    intro p held
    obtain ⟨v, entered, rfl⟩ := List.mem_map.mp held
    obtain ⟨s, -, worked_out⟩ := exists_of_mem_mapM valued entered
    exact exact s v worked_out
  have tallied := tallied_positionMap (fun keyed => placed.reserves keyed valued) listed
  rwa [List.map_map] at tallied

/-- The totals of an obligation count every used slot, its positions the last one of each
    reserve; so they agree if no two slots of a side name the same reserve. -/
theorem totals_tallied {m : Market} {address : String} {a : ObligationAccount}
    {cr br : Option RateMap} {o : Obligation} (h : Obligation.value m address a cr br = .ok o)
    (side : Side) : ∃ ps, m.slotPositions a cr br side = .ok ps ∧
      Tallied m (a.slotReserves side) ps (o.scenario.positions side)
        (o.scenario.total side).toRat := by
  obtain ⟨-, ds, bs, hds, hbs, sums⟩ := Obligation.value_sums h
  cases side with
  | deposits =>
    refine ⟨ds.map (·.2), map_eq_ok_iff.mpr ⟨ds, hds, rfl⟩, ?_⟩
    have tallied := tallied_of_slots (placedIn_collateral m _ cr)
      (fun _ _ h => CollateralSlot.representable_value h) hds
    rwa [← sums.deposits, ← sums.totalDeposit] at tallied
  | borrows =>
    refine ⟨bs.map (·.2), map_eq_ok_iff.mpr ⟨bs, hbs, rfl⟩, ?_⟩
    have tallied := tallied_of_slots (placedIn_debt m _ br)
      (fun _ _ h => DebtSlot.representable_value h) hbs
    rwa [← sums.borrows, ← sums.totalBorrow] at tallied

/-! ## Samples -/

namespace Sample

def singleMarket : Market where
  address := "market"
  account := {}
  reserves := ⟨[("reserve", idle "reserve" "token" 6 1)]⟩

def split : Obligation where
  address := "obligation"
  account := {
    market := "market"
    owner := "owner"
    deposits := [{ reserve := "reserve", depositedAmount := 1000000 }, {},
      { reserve := "reserve", depositedAmount := 2000000 }]
    borrows := [
      { reserve := "reserve", cumulativeBorrowRateLimbs := [scale, 0, 0, 0],
        rawBorrowed := 500000 * scale },
      { reserve := "reserve", cumulativeBorrowRateLimbs := [scale, 0, 0, 0],
        rawBorrowed := 250000 * scale }] }
  deposits := ⟨[("reserve", ⟨"reserve", "token", ⟨false, 2, 6⟩, 2⟩)]⟩
  borrows := ⟨[("reserve", ⟨"reserve", "token", ⟨false, 25, 4⟩, ⟨false, 25, -2⟩⟩)]⟩
  stats := {
    totalDeposit := 3
    totalBorrow := ⟨false, 75, -2⟩
    weightedBorrow := ⟨false, 75, -2⟩
    borrowLimit := ⟨false, 24, -1⟩
    liquidationLimit := ⟨false, 255, -2⟩
    borrowUtilization := ⟨false, 3125, -4⟩
    netValue := ⟨false, 225, -2⟩
    loanToValue := ⟨false, 25, -2⟩
    liquidationLtv := ⟨false, 85, -2⟩
    leverage := ⟨false, 1333333333333333333333333333333333333333, -39⟩ }

end Sample

/-- On both sides the position of the first slot is displaced, and the total more than the
    positions show. -/
theorem totals_tallied_sample :
    Obligation.value Sample.singleMarket "obligation" Sample.split.account none
      (some ⟨[("reserve", 1)]⟩) = .ok Sample.split ∧
    ∀ side, runningSum ((Sample.split.scenario.positions side).values.map (·.value.toRat)) <
      (Sample.split.scenario.total side).toRat := by
  have valued : Obligation.value Sample.singleMarket "obligation" Sample.split.account none
      (some ⟨[("reserve", 1)]⟩) = .ok Sample.split := by decide +kernel
  refine ⟨valued, fun side => ?_⟩
  obtain ⟨ps, given, tallied⟩ := totals_tallied valued side
  cases side with
  | deposits =>
    cases (show Sample.singleMarket.slotPositions Sample.split.account none
      (some ⟨[("reserve", 1)]⟩) .deposits = .ok [⟨"reserve", "token", ⟨false, 1, 6⟩, 1⟩,
        ⟨"reserve", "token", ⟨false, 2, 6⟩, 2⟩] by decide +kernel).symm.trans given
    refine tallied.hidden (by decide +kernel) ?_
    rw [ulp_eq]
    decide +kernel
  | borrows =>
    cases (show Sample.singleMarket.slotPositions Sample.split.account none
      (some ⟨[("reserve", 1)]⟩) .borrows = .ok [⟨"reserve", "token", ⟨false, 5, 5⟩, ⟨false, 5, -1⟩⟩,
        ⟨"reserve", "token", ⟨false, 25, 4⟩, ⟨false, 25, -2⟩⟩] by decide +kernel).symm.trans given
    refine tallied.hidden (by decide +kernel) ?_
    rw [ulp_eq]
    decide +kernel

end Lending
