/-
  Lending.Proofs.Obligation.RateEntries — what is entered in rate maps that hold anything.

  The maps of a caller need not agree with the market: an entry may hold any rate. It stays
  (`Entered.kept`), and a new one is made for each reserve that the accounts use and that had
  none, with its rate at the slot. Whether that succeeds, and what a search finds afterwards, is
  told by which reserves are listed (`exists_fill_of_mem_iff`), so neither the order of the
  accounts counts nor how often one of them comes (`addAllRates_entries`).
-/
import Lending.Obligation.Sample
import Lending.Proofs.Obligation.RateMaps

namespace Lending

/-! ## One map -/

namespace RateMap

/-- The second map is the first with the rates of the wanted addresses that had none. -/
structure Entered (rate : String → Outcome Decimal) (wanted : String → Prop)
    (map map' : RateMap) : Prop where
  kept : Extends map' map
  keys : ∀ address, map.find? address = none → (map'.contains address ↔ wanted address)
  rates : ∀ address v, map.find? address = none → map'.find? address = some v →
    rate address = .ok v

variable {rate : String → Outcome Decimal} {map map' : RateMap} {addresses others : List String}

theorem find?_of_fill_of_free (filled : fill rate map addresses = ⟨map', none⟩)
    {address : String} (free : map.find? address = none) {v : Decimal} :
    map'.find? address = some v ↔
      isUsedAddress address ∧ address ∈ addresses ∧ rate address = .ok v := by
  rw [find?_of_fill filled, free]
  simp

theorem entered_of_fill (filled : fill rate map addresses = ⟨map', none⟩) :
    Entered rate (fun address => isUsedAddress address ∧ address ∈ addresses) map map' where
  kept := extends_of_fill filled
  keys := by
    intro address free
    constructor
    · intro held
      obtain ⟨v, found⟩ := Option.isSome_iff_exists.mp held
      obtain ⟨used, listed, -⟩ := (find?_of_fill_of_free filled free).mp found
      exact ⟨used, listed⟩
    · rintro ⟨used, listed⟩
      exact Option.isSome_iff_exists.mpr (fill_covers filled listed used)
  rates := by
    intro address v free found
    obtain ⟨-, -, own⟩ := (find?_of_fill_of_free filled free).mp found
    exact own

/-- Filling goes by which addresses are listed. -/
theorem exists_fill_of_mem_iff (filled : fill rate map addresses = ⟨map', none⟩)
    (same : ∀ address, address ∈ others ↔ address ∈ addresses) :
    ∃ map'', fill rate map others = ⟨map'', none⟩ ∧
      ∀ address, map''.find? address = map'.find? address := by
  have rated := exists_fill_iff.mp ⟨map', filled⟩
  simp only [← same] at rated
  obtain ⟨map'', filled'⟩ := exists_fill_iff.mpr rated
  refine ⟨map'', filled', ?_⟩
  intro address
  ext v
  rw [find?_of_fill filled', find?_of_fill filled, same]

end RateMap

/-! ## Accounts -/

namespace RateMaps

structure SameEntries (maps maps' : RateMaps) : Prop where
  collateral : ∀ address, maps.collateral.find? address = maps'.collateral.find? address
  borrow : ∀ address, maps.borrow.find? address = maps'.borrow.find? address

end RateMaps

/-- The used addresses in all the accounts' slots, deposits or borrows. -/
theorem used_mem_flatMap_iff {σ : Type} (slots : ObligationAccount → List σ) (reserve : σ → String)
    (accounts : List ObligationAccount) (address : String) :
    (isUsedAddress address ∧ address ∈ accounts.flatMap fun a => (slots a).map reserve) ↔
      ∃ a ∈ accounts, ∃ s ∈ (slots a).filter (isUsedAddress <| reserve ·), reserve s = address := by
  simp only [List.mem_flatMap, List.mem_map, List.mem_filter]
  constructor
  · rintro ⟨used, a, listed, s, held, rfl⟩
    exact ⟨a, listed, s, ⟨held, used⟩, rfl⟩
  · rintro ⟨a, listed, s, ⟨held, used⟩, rfl⟩
    exact ⟨used, a, listed, s, held, rfl⟩

/-- Rates are added for the reserves that the accounts use and that had none; what was in the maps
    stays as it was. Any other list of the same accounts gives the same entries. -/
theorem addAllRates_entries {m : Market} {slot : Int} {maps maps' : RateMaps}
    {accounts : List ObligationAccount}
    (added : accounts.foldlM (m.addRates slot) maps = .ok maps') :
    RateMap.Entered (m.collateralRateAt slot)
      (fun address => ∃ a ∈ accounts, ∃ s ∈ a.usedDeposits, s.reserve = address)
      maps.collateral maps'.collateral ∧
    RateMap.Entered (m.borrowRateAt slot)
      (fun address => ∃ a ∈ accounts, ∃ s ∈ a.usedBorrows, s.reserve = address)
      maps.borrow maps'.borrow ∧
    ∀ accounts' : List ObligationAccount, (∀ a, a ∈ accounts' ↔ a ∈ accounts) →
      ∃ maps'', accounts'.foldlM (m.addRates slot) maps = .ok maps'' ∧
        maps''.SameEntries maps' := by
  obtain ⟨collateral, borrow⟩ := Market.addAllRates_eq_ok_iff.mp added
  refine ⟨?_, ?_, ?_⟩
  · have entered := RateMap.entered_of_fill collateral
    simp only [used_mem_flatMap_iff ObligationAccount.deposits] at entered
    exact entered
  · have entered := RateMap.entered_of_fill borrow
    simp only [used_mem_flatMap_iff ObligationAccount.borrows] at entered
    exact entered
  · intro accounts' same
    have listed (slots : ObligationAccount → List String) (address : String) :
        address ∈ accounts'.flatMap slots ↔ address ∈ accounts.flatMap slots := by
      simp only [List.mem_flatMap, same]
    obtain ⟨collateral', filled, sameCollateral⟩ :=
      RateMap.exists_fill_of_mem_iff collateral (listed _)
    obtain ⟨borrow', filled', sameBorrow⟩ := RateMap.exists_fill_of_mem_iff borrow (listed _)
    exact ⟨⟨collateral', borrow'⟩, Market.addAllRates_eq_ok_iff.mpr ⟨filled, filled'⟩,
      sameCollateral, sameBorrow⟩

def Sample.strayRates : RateMaps where
  collateral := ⟨[("elsewhere", 42)]⟩
  borrow := ⟨[("reserve", 7)]⟩

/-- One rate is entered. The accounts in the other order, one of them twice, give the same. -/
theorem addAllRates_entries_sample : ∃ maps v,
    [Sample.borrower, Sample.withdrawn].foldlM (Sample.market.addRates 2000) Sample.strayRates =
      .ok maps ∧
    maps.collateral.find? "elsewhere" = some 42 ∧ maps.borrow.find? "reserve" = some 7 ∧
    maps.collateral.find? "reserve" = some v ∧
    Sample.market.collateralRateAt 2000 "reserve" = .ok v ∧
    ∃ maps', [Sample.withdrawn, Sample.borrower, Sample.withdrawn].foldlM
      (Sample.market.addRates 2000) Sample.strayRates = .ok maps' ∧ maps'.SameEntries maps := by
  obtain ⟨maps, added⟩ := Outcome.exists_of_isOk
    (o := [Sample.borrower, Sample.withdrawn].foldlM (Sample.market.addRates 2000)
      Sample.strayRates) (by decide +kernel)
  obtain ⟨collateral, borrow, reordered⟩ := addAllRates_entries added
  have free : Sample.strayRates.collateral.find? "reserve" = none := by decide
  have held : maps.collateral.contains "reserve" := by
    apply (collateral.keys "reserve" free).mpr
    exact ⟨Sample.borrower, List.mem_cons_self, _, List.mem_singleton_self _, rfl⟩
  obtain ⟨v, found⟩ := Option.isSome_iff_exists.mp held
  refine ⟨maps, v, added, collateral.kept _ _ rfl, borrow.kept _ _ rfl, found,
    collateral.rates _ _ free found, reordered _ ?_⟩
  intro a
  simp only [List.mem_cons, List.not_mem_nil, or_false]
  tauto

end Lending
