/-
  Lending.Proofs.Obligation.RateMaps — what shared rate maps hold.

  A filled map has the entries that it had before, and the rate of each used address that was
  listed and had none (`find?_of_fill`). Accounts one after another fill a map as one pass over all
  their slots does (`addAllRates_eq_ok_iff`).

  The invariant is `Agrees`: every entry is the rate of its own reserve at the slot. A
  reserve that has an entry is not projected again, and need not be, for it would get the
  same one. So whether an account's rates can be added, and how that fails, does not depend on
  what the maps hold already (`addRates_eq_error_iff`): they can exactly if each of its reserves
  can be projected (`addRates_ok_iff`). After that
  the maps have an entry for each (`Covers`), whoever entered it, and later accounts leave it
  as it is (`Extends`).
-/
import Lending.Obligation.RateMaps
import Lending.Proofs.Outcome

namespace Lending

/-! ## One map -/

namespace RateMap

def Agrees (rate : String → Outcome Decimal) (map : RateMap) : Prop :=
  ∀ address v, map.find? address = some v → rate address = .ok v

def Extends (map' map : RateMap) : Prop :=
  ∀ address v, map.find? address = some v → map'.find? address = some v

variable {rate : String → Outcome Decimal}

theorem agrees_empty : Agrees rate .empty := by
  intro address v found
  cases found

theorem Agrees.insert {map : RateMap} (h : Agrees rate map) {address : String} {v : Decimal}
    (own : rate address = .ok v) : Agrees rate (map.insert address v) := by
  intro other w found
  rw [AddressMap.find?_insert] at found
  split at found
  · rename_i same
    cases found
    rw [same, own]
  · exact h other w found

theorem fill_cons_free {map map' : RateMap} {address : String} (used : isUsedAddress address)
    (free : map.find? address = none) (rest : List String) :
    fill rate map (address :: rest) = ⟨map', none⟩ ↔
      ∃ v, rate address = .ok v ∧ fill rate (map.insert address v) rest = ⟨map', none⟩ := by
  rw [fill, if_pos ⟨used, by simp [AddressMap.contains, free]⟩]
  cases rate address <;> simp

theorem fill_cons_passed {map : RateMap} {address : String}
    (passed : ¬ (isUsedAddress address ∧ map.find? address = none)) (rest : List String) :
    fill rate map (address :: rest) = fill rate map rest := by
  rw [fill, if_neg]
  rintro ⟨used, free⟩
  exact passed ⟨used, by simpa [AddressMap.contains] using free⟩

/-- What is looked up: an entry that was there, or the rate of a listed address without one. -/
theorem find?_of_fill {map map' : RateMap} {addresses : List String}
    (filled : fill rate map addresses = ⟨map', none⟩) {address : String} {v : Decimal} :
    map'.find? address = some v ↔ map.find? address = some v ∨
      map.find? address = none ∧ isUsedAddress address ∧ address ∈ addresses ∧
        rate address = .ok v := by
  induction addresses generalizing map with
  | nil =>
    cases filled
    simp
  | cons first rest ih =>
    by_cases free : isUsedAddress first ∧ map.find? first = none
    · obtain ⟨w, own, filled⟩ := (fill_cons_free free.1 free.2 rest).mp filled
      rw [ih filled, AddressMap.find?_insert]
      by_cases same : address = first
      · simp [same, free, own]
      · simp [same]
    · rw [fill_cons_passed free] at filled
      rw [ih filled, List.mem_cons]
      refine or_congr_right (and_congr_right fun none => and_congr_right fun used => ?_)
      -- a used address without an entry is not the one that was passed over
      have other : address ≠ first := by
        rintro rfl
        exact free ⟨used, none⟩
      rw [or_iff_right other]

/-- Filling succeeds if each used address that has no entry has a rate. -/
theorem exists_fill_iff {map : RateMap} {addresses : List String} :
    (∃ map', fill rate map addresses = ⟨map', none⟩) ↔
      ∀ address ∈ addresses, isUsedAddress address → map.find? address = none →
        ∃ v, rate address = .ok v := by
  induction addresses generalizing map with
  | nil => simp [fill]
  | cons first rest ih =>
    rw [List.forall_mem_cons]
    by_cases free : isUsedAddress first ∧ map.find? first = none
    · simp only [fill_cons_free free.1 free.2, free, forall_const]
      rw [exists_comm]
      simp only [exists_and_left, ih, AddressMap.find?_insert]
      constructor
      · rintro ⟨v, own, later⟩
        refine ⟨⟨v, own⟩, ?_⟩
        intro address listed used none
        by_cases same : address = first
        · exact ⟨v, same ▸ own⟩
        · exact later address listed used (by rwa [if_neg same])
      · rintro ⟨⟨v, own⟩, later⟩
        refine ⟨v, own, ?_⟩
        intro address listed used none
        split at none
        · cases none
        · exact later address listed used none
    · rw [fill_cons_passed free, ih, and_iff_right]
      intro used none
      exact absurd ⟨used, none⟩ free

/-- One pass over two lists is a pass over each. -/
theorem fill_append_eq_iff {map map' : RateMap} {addresses others : List String} :
    fill rate map (addresses ++ others) = ⟨map', none⟩ ↔
      ∃ between, fill rate map addresses = ⟨between, none⟩ ∧
        fill rate between others = ⟨map', none⟩ := by
  induction addresses generalizing map with
  | nil => simp [fill]
  | cons first rest ih =>
    rw [List.cons_append]
    by_cases free : isUsedAddress first ∧ map.find? first = none
    · simp only [fill_cons_free free.1 free.2, ih]
      constructor
      · rintro ⟨v, own, between, filled, later⟩
        exact ⟨between, ⟨v, own, filled⟩, later⟩
      · rintro ⟨between, ⟨v, own, filled⟩, later⟩
        exact ⟨v, own, between, filled, later⟩
    · rw [fill_cons_passed free, fill_cons_passed free, ih]

theorem Agrees.fill {map map' : RateMap} (h : Agrees rate map) {addresses : List String}
    (filled : fill rate map addresses = ⟨map', none⟩) : Agrees rate map' := by
  intro address v found
  rcases (find?_of_fill filled).mp found with held | ⟨-, -, -, own⟩
  · exact h address v held
  · exact own

theorem extends_of_fill {map map' : RateMap} {addresses : List String}
    (filled : fill rate map addresses = ⟨map', none⟩) : Extends map' map :=
  fun _ _ held => (find?_of_fill filled).mpr (.inl held)

theorem fill_covers {map map' : RateMap} {addresses : List String}
    (filled : fill rate map addresses = ⟨map', none⟩) {address : String}
    (listed : address ∈ addresses) (used : isUsedAddress address) :
    ∃ v, map'.find? address = some v := by
  cases held : map.find? address with
  | some v => exact ⟨v, (find?_of_fill filled).mpr (.inl held)⟩
  | none =>
    obtain ⟨v, own⟩ := exists_fill_iff.mp ⟨map', filled⟩ address listed used held
    exact ⟨v, (find?_of_fill filled).mpr (.inr ⟨held, used, listed, own⟩)⟩

/-- An entry is never in the way: filling ends as working out every used rate does. -/
theorem fill_fault_eq_some_iff {map : RateMap} (h : Agrees rate map) (addresses : List String)
    (fault : Fault) : (fill rate map addresses).fault = some fault ↔
      (addresses.filter isUsedAddress).mapM rate = .error fault := by
  induction addresses generalizing map with
  | nil => simp [fill, pure, Except.pure]
  | cons address rest ih =>
    unfold fill
    by_cases used : isUsedAddress address
    · rw [List.filter_cons_of_pos used, List.mapM_cons]
      cases own : rate address with
      | error g =>
        have free : ¬ map.contains address := by
          intro held
          obtain ⟨v, found⟩ := Option.isSome_iff_exists.mp held
          cases own.symm.trans (h _ _ found)
        rw [if_pos ⟨used, free⟩]
        show some g = some fault ↔ Except.error g = Except.error fault
        rw [Option.some_inj, Except.error.injEq]
      | ok v =>
        -- entered now or before, the later addresses decide
        rw [Outcome.ok_bind_cons_eq_error_iff]
        split
        · exact ih (h.insert own)
        · exact ih h
    · rw [List.filter_cons_of_neg used, if_neg fun free => used free.1]
      exact ih h

end RateMap

/-! ## Both maps -/

namespace RateMaps

structure Agrees (m : Market) (slot : Int) (maps : RateMaps) : Prop where
  collateral : RateMap.Agrees (m.collateralRateAt slot) maps.collateral
  borrow : RateMap.Agrees (m.borrowRateAt slot) maps.borrow

structure Covers (maps : RateMaps) (a : ObligationAccount) : Prop where
  collateral : ∀ s ∈ a.usedDeposits, ∃ v, maps.collateral.find? s.reserve = some v
  borrow : ∀ s ∈ a.usedBorrows, ∃ v, maps.borrow.find? s.reserve = some v

structure Extends (maps' maps : RateMaps) : Prop where
  collateral : RateMap.Extends maps'.collateral maps.collateral
  borrow : RateMap.Extends maps'.borrow maps.borrow

theorem agrees_empty (m : Market) (slot : Int) : Agrees m slot {} :=
  ⟨RateMap.agrees_empty, RateMap.agrees_empty⟩

end RateMaps

namespace Market

theorem collateralRateAt_eq {m : Market} {address : String} {r : Reserve}
    (found : m.reserveAt? address = some r) (slot : Int) :
    m.collateralRateAt slot address = r.exchangeRateAt slot m.referralFeeBps := by
  unfold collateralRateAt reserveAt
  rw [found]
  rfl

theorem borrowRateAt_eq {m : Market} {address : String} {r : Reserve}
    (found : m.reserveAt? address = some r) (slot : Int) :
    m.borrowRateAt slot address = r.cumulativeBorrowRateAt slot := by
  unfold borrowRateAt reserveAt
  rw [found]
  rfl

structure Projects (m : Market) (slot : Int) (a : ObligationAccount) : Prop where
  collateral : ∀ s ∈ a.usedDeposits, ∃ v, m.collateralRateAt slot s.reserve = .ok v
  borrow : ∀ s ∈ a.usedBorrows, ∃ v, m.borrowRateAt slot s.reserve = .ok v

variable {m : Market} {slot : Int}

theorem addRates_eq_ok_iff {maps maps' : RateMaps} {a : ObligationAccount} :
    m.addRates slot maps a = .ok maps' ↔
      RateMap.fill (m.collateralRateAt slot) maps.collateral (a.deposits.map (·.reserve)) =
        ⟨maps'.collateral, none⟩ ∧
      RateMap.fill (m.borrowRateAt slot) maps.borrow (a.borrows.map (·.reserve)) =
        ⟨maps'.borrow, none⟩ := by
  obtain ⟨collateral', borrow'⟩ := maps'
  unfold addRates fillRates
  rcases RateMap.fill (m.collateralRateAt slot) maps.collateral _ with ⟨filled, _ | fault⟩
  · rcases RateMap.fill (m.borrowRateAt slot) maps.borrow _ with ⟨filled', _ | fault⟩
    · simp [pure, Except.pure]
    · simp
  · simp

/-- Adding rates fails as working out those of the used slots does, deposits first. -/
theorem addRates_eq_error_iff {maps : RateMaps} (agrees : maps.Agrees m slot)
    (a : ObligationAccount) (fault : Fault) : m.addRates slot maps a = .error fault ↔
      ((a.usedDeposits.map (·.reserve)).mapM (m.collateralRateAt slot) >>= fun _ =>
        (a.usedBorrows.map (·.reserve)).mapM (m.borrowRateAt slot)) = .error fault := by
  have deposits := RateMap.fill_fault_eq_some_iff agrees.collateral (a.deposits.map (·.reserve))
  have borrows := RateMap.fill_fault_eq_some_iff agrees.borrow (a.borrows.map (·.reserve))
  rw [List.filter_map] at deposits borrows
  change ∀ fault, _ ↔ (a.usedDeposits.map (·.reserve)).mapM _ = _ at deposits
  change ∀ fault, _ ↔ (a.usedBorrows.map (·.reserve)).mapM _ = _ at borrows
  unfold addRates fillRates
  generalize RateMap.fill (m.collateralRateAt slot) maps.collateral _ = collateral at deposits ⊢
  generalize RateMap.fill (m.borrowRateAt slot) maps.borrow _ = borrow at borrows ⊢
  obtain ⟨filled, _ | g⟩ := collateral
  · cases rated : (a.usedDeposits.map (·.reserve)).mapM (m.collateralRateAt slot) with
    | error g => cases (deposits g).mpr rated
    | ok rates =>
      show _ ↔ (a.usedBorrows.map (·.reserve)).mapM _ = _
      rw [← borrows]
      obtain ⟨filled', _ | g⟩ := borrow <;> simp [pure, Except.pure]
  · rw [(deposits g).mp rfl]
    show Except.error g = Except.error fault ↔ Except.error g = Except.error fault
    simp only [Except.error.injEq]

/-- What the maps already hold decides nothing. -/
theorem addRates_ok_iff {maps : RateMaps} (agrees : maps.Agrees m slot) (a : ObligationAccount) :
    (∃ maps', m.addRates slot maps a = .ok maps') ↔ m.Projects slot a := by
  rw [Outcome.exists_ok_iff_of_errors (addRates_eq_error_iff agrees a)]
  simp only [Outcome.bind_eq_ok_iff, exists_and_left, exists_and_right]
  rw [Outcome.exists_mapM_eq_ok_iff, Outcome.exists_mapM_eq_ok_iff]
  simp only [List.forall_mem_map]
  exact ⟨fun h => ⟨h.1, h.2⟩, fun h => ⟨h.1, h.2⟩⟩

/-! ## Accounts one after another -/

/-- Accounts one after another are one pass over all their slots, for each map. -/
theorem addAllRates_eq_ok_iff {maps maps' : RateMaps} {accounts : List ObligationAccount} :
    accounts.foldlM (m.addRates slot) maps = .ok maps' ↔
      RateMap.fill (m.collateralRateAt slot) maps.collateral
        (accounts.flatMap fun a => a.deposits.map (·.reserve)) = ⟨maps'.collateral, none⟩ ∧
      RateMap.fill (m.borrowRateAt slot) maps.borrow
        (accounts.flatMap fun a => a.borrows.map (·.reserve)) = ⟨maps'.borrow, none⟩ := by
  induction accounts generalizing maps with
  | nil => simp [RateMap.fill, pure, Except.pure, ← RateMaps.mk.injEq]
  | cons a rest ih =>
    simp only [List.foldlM_cons, Outcome.bind_eq_ok_iff, ih, addRates_eq_ok_iff,
      List.flatMap_cons, RateMap.fill_append_eq_iff]
    constructor
    · rintro ⟨next, ⟨collateral, borrow⟩, collateral', borrow'⟩
      exact ⟨⟨_, collateral, collateral'⟩, _, borrow, borrow'⟩
    · rintro ⟨⟨nextCollateral, collateral, collateral'⟩, nextBorrow, borrow, borrow'⟩
      exact ⟨⟨nextCollateral, nextBorrow⟩, ⟨collateral, borrow⟩, collateral', borrow'⟩

/-- What the maps are after rates were added. -/
theorem addAllRates_spec {maps maps' : RateMaps} {accounts : List ObligationAccount}
    (agrees : maps.Agrees m slot) (added : accounts.foldlM (m.addRates slot) maps = .ok maps') :
    maps'.Agrees m slot ∧ (∀ a ∈ accounts, maps'.Covers a) ∧ maps'.Extends maps := by
  obtain ⟨collateral, borrow⟩ := addAllRates_eq_ok_iff.mp added
  refine ⟨⟨agrees.collateral.fill collateral, agrees.borrow.fill borrow⟩, ?_,
    ⟨RateMap.extends_of_fill collateral, RateMap.extends_of_fill borrow⟩⟩
  intro a listed
  constructor
  · intro s hs
    obtain ⟨held, used⟩ := List.mem_filter.mp hs
    exact RateMap.fill_covers collateral
      (List.mem_flatMap.mpr ⟨a, listed, List.mem_map_of_mem held⟩) used
  · intro s hs
    obtain ⟨held, used⟩ := List.mem_filter.mp hs
    exact RateMap.fill_covers borrow
      (List.mem_flatMap.mpr ⟨a, listed, List.mem_map_of_mem held⟩) used

theorem addRates_spec {maps maps' : RateMaps} {a : ObligationAccount} (agrees : maps.Agrees m slot)
    (added : m.addRates slot maps a = .ok maps') :
    maps'.Agrees m slot ∧ maps'.Covers a ∧ maps'.Extends maps := by
  have alone : [a].foldlM (m.addRates slot) maps = .ok maps' := by
    rw [List.foldlM_cons, added]
    rfl
  obtain ⟨next, covers, more⟩ := addAllRates_spec agrees alone
  exact ⟨next, covers a (List.mem_singleton_self a), more⟩

theorem addAllRates_ok_iff {maps : RateMaps} (agrees : maps.Agrees m slot)
    (accounts : List ObligationAccount) :
    (∃ maps', accounts.foldlM (m.addRates slot) maps = .ok maps') ↔
      ∀ a ∈ accounts, m.Projects slot a := by
  induction accounts generalizing maps with
  | nil => simp [pure, Except.pure]
  | cons a rest ih =>
    simp only [List.foldlM_cons, Outcome.bind_eq_ok_iff, List.forall_mem_cons]
    constructor
    · rintro ⟨final, next, first, remaining⟩
      exact ⟨(addRates_ok_iff agrees a).mp ⟨next, first⟩,
        (ih (addRates_spec agrees first).1).mp ⟨final, remaining⟩⟩
    · rintro ⟨own, others⟩
      obtain ⟨next, first⟩ := (addRates_ok_iff agrees a).mpr own
      obtain ⟨final, remaining⟩ := (ih (addRates_spec agrees first).1).mpr others
      exact ⟨final, next, first, remaining⟩

end Market

end Lending
