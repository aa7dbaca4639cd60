/-
  Lending.Proofs.Obligation.SlotChange — the totals after one slot changed or was added.

  The valued slots differ in one place (`SlotChange.results`). If the figures of that slot are
  its holding scaled step by step (`Place`), then adding the scaled change to an old total, or
  summing over the new slots, differs by a few units for each slot (`SlotChange.total_near`,
  `SlotChange.share_near`), and so it is with the position of the slot
  (`SlotChange.position_near`). Nothing here depends on the side of the account.
-/
import Lending.Proofs.Obligation.Step
import Lending.Proofs.Obligation.Totals

namespace Lending

open Outcome Truncation

/-! ## The slots -/

/-- A list of slots after the slot of a reserve changed, or one was added for it. -/
inductive SlotChange {σ : Type} (reserve : σ → String) (address : String) :
    Option σ → σ → List σ → List σ → Prop
  | replaced (before after : List σ) {slot slot' : σ} :
      reserve slot = address → reserve slot' = address →
      SlotChange reserve address (some slot) slot' (before ++ slot :: after)
        (before ++ slot' :: after)
  | added (before after : List σ) {slot' : σ} :
      reserve slot' = address → (∀ s ∈ before ++ after, reserve s ≠ address) →
      SlotChange reserve address none slot' (before ++ after) (before ++ slot' :: after)

namespace SlotChange

variable {σ : Type} {reserve : σ → String} {address : String} {slot : Option σ} {slot' : σ}
  {old new : List σ} (change : SlotChange reserve address slot slot' old new)
include change

theorem mem_old : ∀ s ∈ slot, s ∈ old := by
  rintro s rfl
  cases change
  exact List.mem_append_right _ List.mem_cons_self

theorem mem_new {s : σ} (h : s ∈ new) : s ∈ old ∨ s = slot' := by
  cases change with
  | replaced before after _ _ =>
    simp only [List.mem_append, List.mem_cons] at h ⊢
    tauto
  | added before after _ _ =>
    simp only [List.mem_append, List.mem_cons] at h ⊢
    tauto

theorem reserve_slot : ∀ s ∈ slot, reserve s = address := by
  rintro s rfl
  cases change
  assumption

theorem fresh (added : slot = none) : ∀ s ∈ old, reserve s ≠ address := by
  cases change with
  | replaced _ _ _ _ => cases added
  | added _ _ _ fresh => exact fresh

theorem reserve_slot' : reserve slot' = address := by
  cases change <;> assumption

theorem distinct (h : (old.map reserve).Nodup) : (new.map reserve).Nodup := by
  cases change with
  | replaced before after was now =>
    rw [List.map_append, List.map_cons] at h ⊢
    rwa [now, ← was]
  | added before after now fresh =>
    rw [List.map_append, List.map_cons]
    refine List.nodup_middle.mpr (List.nodup_cons.mpr ⟨?_, by rwa [List.map_append] at h⟩)
    rw [← List.map_append, now]
    rintro taken
    obtain ⟨s, listed, same⟩ := List.mem_map.mp taken
    exact fresh s listed same

/-- The slots valued before and after differ in one place. -/
theorem results {f : σ → Outcome β} {vs vs' : List β} (h : old.mapM f = .ok vs)
    (h' : new.mapM f = .ok vs') :
    ∃ before was after v', vs = before ++ was ++ after ∧ vs' = before ++ v' :: after ∧
      (slot = none ∧ was = [] ∨ ∃ s v, slot = some s ∧ was = [v] ∧ f s = .ok v) ∧
      f slot' = .ok v' := by
  have split : ∃ before after, old = before ++ slot.toList ++ after ∧
      new = before ++ slot' :: after := by
    cases change with
    | replaced before after _ _ => exact ⟨before, after, by simp, rfl⟩
    | added before after _ _ => exact ⟨before, after, by simp, rfl⟩
  obtain ⟨before, after, rfl, rfl⟩ := split
  simp only [List.mapM_append, List.mapM_cons, bind_eq_ok_iff] at h h'
  obtain ⟨_, ⟨early, hearly, was, hwas, same⟩, late, hlate, h⟩ := h
  obtain ⟨early', hearly', _, ⟨v', hv', late', hlate', same'⟩, h'⟩ := h'
  cases same
  cases same'
  cases h
  cases h'
  cases hearly.symm.trans hearly'
  cases hlate.symm.trans hlate'
  refine ⟨early, was, late, v', rfl, rfl, ?_, hv'⟩
  cases slot with
  | none =>
    cases hwas
    exact .inl ⟨rfl, rfl⟩
  | some s =>
    rw [Option.toList_some, mapM_eq_ok_iff] at hwas
    obtain ⟨v, rest, first, none, rfl⟩ := List.forall₂_cons_left_iff.mp hwas
    cases none
    exact .inr ⟨s, v, rfl, rfl, first⟩

end SlotChange

/-! ## Their figures -/

/-- What valuing the slot that changes gives, for what it held and for what it then holds;
    without a slot nothing was held. -/
structure Place {σ β : Type} (f : σ → Outcome β) (facts : β → ℚ → Prop) (slot : Option σ)
    (slot' : σ) (held c : ℚ) : Prop where
  none : slot = none → held = 0
  was : ∀ s ∈ slot, ∀ v, f s = .ok v → facts v held
  now : ∀ v, f slot' = .ok v → facts v (held + c)

structure PositionNear (n : ℕ) (old predicted actual : Position) (amount value : ℚ) : Prop where
  amount : Near n predicted.amount.toRat actual.amount.toRat old.amount.toRat amount
  value : Near n predicted.value.toRat actual.value.toRat old.value.toRat value

def PlacedIn {σ τ : Type} (m : Market) (reserve : σ → String) (f : σ → Outcome (τ × Position)) :
    Prop :=
  ∀ s v, f s = .ok v →
    ∃ r, m.reserveAt? (reserve s) = some r ∧ v.2.reserve = r.address ∧ v.2.mint = r.mint

theorem placedIn_collateral (m : Market) (group : ℤ) (rates : Option RateMap) :
    PlacedIn m CollateralSlot.reserve (CollateralSlot.valued m group rates) := by
  intro s v h
  obtain ⟨r, rate, factor, worth⟩ := s.worth h
  exact ⟨r, worth.reserveAt, worth.reserve, worth.mint⟩

theorem placedIn_debt (m : Market) (group : ℤ) (rates : Option RateMap) :
    PlacedIn m DebtSlot.reserve (DebtSlot.valued m group rates) := by
  intro s v h
  obtain ⟨r, rate, recordedRate, factor, worth⟩ := s.worth h
  exact ⟨r, worth.reserveAt, worth.reserve, worth.mint⟩

section
variable {σ τ : Type} {m : Market} {reserve : σ → String} {f : σ → Outcome (τ × Position)}
  {address : String} {slot : Option σ} {slot' : σ} {old new : List σ} {vs vs' : List (τ × Position)}
  {facts : τ × Position → ℚ → Prop} {held c : ℚ}

theorem PlacedIn.reserve_eq (placed : PlacedIn m reserve f) (keyed : m.Keyed) {s : σ}
    {v : τ × Position} (h : f s = .ok v) : v.2.reserve = reserve s := by
  obtain ⟨r, found, same, -⟩ := placed s v h
  rw [same, keyed.address_eq found]

theorem PlacedIn.reserves (placed : PlacedIn m reserve f) (keyed : m.Keyed)
    (h : old.mapM f = .ok vs) : (vs.map (·.2)).map (·.reserve) = old.map reserve := by
  rw [mapM_eq_ok_iff] at h
  induction h with
  | nil => rfl
  | cons first _ ih =>
    simp only [List.map_cons, placed.reserve_eq keyed first]
    exact congrArg _ ih

theorem PlacedIn.ofMint_eq (placed : PlacedIn m reserve f) (keyed : m.Keyed) (one : m.OnePerMint)
    (distinct : (old.map reserve).Nodup) (h : old.mapM f = .ok vs) {r : Reserve}
    (onMarket : m.reserveAt? r.address = some r) :
    Position.ofMint (positionMap (vs.map (·.2))) r r.mint =
      positionIn (positionMap (vs.map (·.2))) r := by
  refine Lending.ofMint_eq keyed one (placed.reserves keyed h ▸ distinct) ?_ onMarket
  intro p listed
  obtain ⟨v, held, rfl⟩ := List.mem_map.mp listed
  obtain ⟨s, -, valued⟩ := exists_of_mem_mapM h held
  obtain ⟨own, found, -, mint⟩ := placed s v valued
  exact ⟨own, placed.reserve_eq keyed valued ▸ found, mint⟩

variable (change : SlotChange reserve address slot slot' old new) (h : old.mapM f = .ok vs)
  (h' : new.mapM f = .ok vs')
include change h h'

/-- A total to which the scaled change is added. -/
theorem SlotChange.total_near {figure : τ × Position → ℚ} {steps : List ℚ}
    (place : Place f facts slot slot' held c) (scaled : Change steps held c)
    (reads : ∀ v x, facts v x → figure v = scaleBy steps x)
    (figures : ∀ v ∈ vs, 0 ≤ figure v ∧ Representable (figure v)) :
    Near old.length (max (truncate (runningSum (vs.map figure) + scaleBy steps c)) 0)
      (runningSum (vs'.map figure)) (runningSum (vs.map figure)) (scaleBy steps c) := by
  obtain ⟨before, was, after, v', rfl, rfl, held_was, now⟩ := change.results h h'
  -- what the slot was worth is one entry of the old sum, or none
  have one : (was.map figure).length ≤ 1 := by
    rcases held_was with ⟨-, rfl⟩ | ⟨s, v, -, rfl, -⟩ <;> simp
  have sum : (was.map figure).sum = scaleBy steps held := by
    rcases held_was with ⟨fresh, rfl⟩ | ⟨s, v, rfl, rfl, valued⟩
    · simp [place.none fresh]
    · rw [List.map_singleton, List.sum_singleton, reads v held (place.was s rfl v valued)]
  have count : old.length = (before.map figure ++ was.map figure ++ after.map figure).length := by
    rw [← List.map_append, ← List.map_append, List.length_map]
    exact (mapM_eq_ok_iff.mp h).length_eq
  rw [count]
  simp only [List.map_append, List.map_cons, reads v' _ (place.now v' now)]
  refine scaled.sum_near one sum ?_
  rw [← List.map_append, ← List.map_append]
  exact List.forall_mem_map.mpr figures

/-- The same of a share of each value. -/
theorem SlotChange.share_near {share : τ × Position → ℚ} {steps : List ℚ} {part : ℚ}
    (place : Place f facts slot slot' held c) (scaled : Change (steps ++ [part]) held c)
    (reads : ∀ v x, facts v x → v.2.value.toRat = scaleBy steps x ∧ share v = part)
    (figures : ∀ v ∈ vs, 0 ≤ v.2.value.toRat ∧ 0 ≤ share v) :
    Near old.length
      (max (truncate (runningSum (vs.map fun v => truncate (v.2.value.toRat * share v)) +
        scaleBy (steps ++ [part]) c)) 0)
      (runningSum (vs'.map fun v => truncate (v.2.value.toRat * share v)))
      (runningSum (vs.map fun v => truncate (v.2.value.toRat * share v)))
      (scaleBy (steps ++ [part]) c) := by
  refine change.total_near h h' place scaled (fun v x now => ?_) fun v listed => ?_
  · obtain ⟨value_eq, share_eq⟩ := reads v x now
    rw [value_eq, share_eq, scaleBy_append_singleton]
  · obtain ⟨value_nonneg, share_nonneg⟩ := figures v listed
    exact ⟨truncate_nonneg (mul_nonneg value_nonneg share_nonneg), representable_truncate _⟩

/-- The position of the slot before the change. -/
theorem SlotChange.positionIn_eq {r : Reserve} (same : address = r.address)
    (placed : PlacedIn m reserve f) (keyed : m.Keyed) (distinct : (old.map reserve).Nodup) :
    slot = none ∧ positionIn (positionMap (vs.map (·.2))) r = ⟨r.address, r.mint, 0, 0⟩ ∨
      ∃ s v, slot = some s ∧ f s = .ok v ∧ positionIn (positionMap (vs.map (·.2))) r = v.2 := by
  have reserves := placed.reserves keyed h
  have distinct' : ((vs.map (·.2)).map (·.reserve)).Nodup := reserves ▸ distinct
  unfold positionIn
  obtain ⟨before, was, after, v', split, -, held_was, -⟩ := change.results h h'
  rcases held_was with ⟨added, -⟩ | ⟨s, v, held, rfl, valued⟩
  · refine .inl ⟨added, ?_⟩
    rw [find?_positionMap_of_fresh distinct']
    · rfl
    · intro p listed taken
      have known : p.reserve ∈ (vs.map (·.2)).map (·.reserve) :=
        List.mem_map.mpr ⟨p, listed, rfl⟩
      rw [reserves] at known
      obtain ⟨s, used, address⟩ := List.mem_map.mp known
      exact change.fresh added s used (address.trans (taken.trans same.symm))
  · have address : v.2.reserve = r.address := by
      rw [placed.reserve_eq keyed valued, change.reserve_slot s held, same]
    refine .inr ⟨s, v, held, valued, ?_⟩
    have listed : v.2 ∈ vs.map (·.2) := by
      rw [split]
      exact List.mem_map_of_mem (by simp)
    rw [← address, find?_positionMap distinct' listed]
    rfl

/-- The position of the slot, to which the scaled change is added. -/
theorem SlotChange.position_near {r : Reserve} {steps steps' : List ℚ}
    {amount value : Decimal} {changed : Position} (same : address = r.address)
    (placed : PlacedIn m reserve f) (keyed : m.Keyed) (one : m.OnePerMint)
    (distinct : (old.map reserve).Nodup) (onMarket : m.reserveAt? r.address = some r)
    (place : Place f facts slot slot' held c) (amounts : Change steps held c)
    (values : Change steps' held c)
    (reads : ∀ v x, facts v x →
      v.2.amount.toRat = scaleBy steps x ∧ v.2.value.toRat = scaleBy steps' x)
    (amount_eq : amount.toRat = scaleBy steps c) (value_eq : value.toRat = scaleBy steps' c)
    {positions : AddressMap Position}
    (step : PositionStep (positionMap (vs.map (·.2))) positions r r.mint amount value changed)
    (n : ℕ) :
    ∃ p p', positions.find? r.address = some p ∧
      (positionMap (vs'.map (·.2))).find? r.address = some p' ∧
      PositionNear n (positionIn (positionMap (vs.map (·.2))) r) p p' amount.toRat value.toRat := by
  obtain ⟨entered, -, -, new_amount, new_value⟩ := step
  rw [placed.ofMint_eq keyed one distinct h onMarket] at entered new_amount new_value
  obtain ⟨before, was, after, v', -, split, -, valued⟩ := change.results h h'
  have distinct' : ((vs'.map (·.2)).map (·.reserve)).Nodup := by
    rw [placed.reserves keyed h']
    exact change.distinct distinct
  have address : v'.2.reserve = r.address := by
    rw [placed.reserve_eq keyed valued, change.reserve_slot', same]
  have listed : v'.2 ∈ vs'.map (·.2) := by
    rw [split]
    exact List.mem_map_of_mem (by simp)
  refine ⟨changed, v'.2, ?_, by rw [← address, find?_positionMap distinct' listed], ?_⟩
  · rw [entered, AddressMap.find?_insert, positionIn_reserve (placed.reserves keyed h ▸ distinct),
      if_pos rfl]
  -- the figures of the position before the change
  have figures : (positionIn (positionMap (vs.map (·.2))) r).amount.toRat = scaleBy steps held ∧
      (positionIn (positionMap (vs.map (·.2))) r).value.toRat = scaleBy steps' held := by
    rcases change.positionIn_eq h h' same placed keyed distinct with
      ⟨fresh, empty⟩ | ⟨s, v, found, worth, eq⟩
    · rw [empty, place.none fresh, scaleBy_zero, scaleBy_zero]
      exact ⟨Decimal.toRat_zero, Decimal.toRat_zero⟩
    · rw [eq]
      exact reads v held (place.was s found v worth)
  obtain ⟨left_amount, left_value⟩ := reads v' _ (place.now v' valued)
  constructor
  · rw [new_amount, figures.1, amount_eq, left_amount]
    exact amounts.near n
  · rw [new_value, figures.2, value_eq, left_value]
    exact values.near n

end

end Lending
