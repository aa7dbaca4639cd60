/-
  Lending.Proofs.Obligation.Batch — a batch of obligations against one at a time.

  Valuing an account reads a rate map only at the reserves of its own used slots. So two
  pairs of maps that both agree with the market and cover the account value it alike
  (`valueWith_congr`), and the shared maps of a batch stand for the account's own: a batch
  gives a result exactly if every single load does, and then it gives the same obligations in
  the same order (`loadAll_as_singles`).
-/
import Lending.Obligation.Sample
import Lending.Proofs.Market.Keyed
import Lending.Proofs.Obligation.RateMaps

namespace Lending

open RateMaps

variable {m : Market} {slot : Int} {maps maps' : RateMaps} {a : ObligationAccount}

/-! ## The maps of an account -/

theorem rateOf_congr {rates rates' : RateMap} {r : Reserve} (own : Outcome Decimal)
    (same : rates.find? r.address = rates'.find? r.address) :
    rateOf (some rates) r own = rateOf (some rates') r own := by
  show Outcome.ofOption _ _ = Outcome.ofOption _ _
  rw [same]

theorem RateMap.find?_congr {rate : String → Outcome Decimal} {rates rates' : RateMap}
    (agrees : rates.Agrees rate) (agrees' : rates'.Agrees rate) {address : String}
    (covers : ∃ v, rates.find? address = some v) (covers' : ∃ v, rates'.find? address = some v) :
    rates.find? address = rates'.find? address := by
  obtain ⟨v, found⟩ := covers
  obtain ⟨w, found'⟩ := covers'
  have same : Except.ok v = Except.ok w := (agrees _ _ found).symm.trans (agrees' _ _ found')
  injection same with same
  rw [found, found', same]

/-- Deposits are valued alike if each used slot has the same rate. -/
theorem Market.valueDeposits_congr {cr cr' : Option RateMap}
    (same : ∀ s ∈ a.usedDeposits, ∀ r, m.reserveAt? s.reserve = some r →
      rateOf cr r r.exchangeRate = rateOf cr' r r.exchangeRate) :
    m.valueDeposits a cr = m.valueDeposits a cr' := by
  unfold valueDeposits
  rw [Outcome.foldlM_congr]
  intro s hs t
  refine Outcome.bind_congr fun r found => ?_
  rw [same s hs r (Outcome.ofOption_eq_ok_iff.mp found)]

theorem Market.valueBorrows_congr {br br' : Option RateMap}
    (same : ∀ s ∈ a.usedBorrows, ∀ r, m.reserveAt? s.reserve = some r →
      rateOf br r r.cumulativeBorrowRate = rateOf br' r r.cumulativeBorrowRate) :
    m.valueBorrows a br = m.valueBorrows a br' := by
  unfold valueBorrows
  refine Outcome.foldlM_congr (fun s hs t => ?_) _
  refine Outcome.bind_congr fun recorded _ => Outcome.bind_congr fun r found => ?_
  rw [same s hs r (Outcome.ofOption_eq_ok_iff.mp found)]

namespace Obligation

theorem value_congr {cr cr' br br' : Option RateMap}
    (deposits : ∀ s ∈ a.usedDeposits, ∀ r, m.reserveAt? s.reserve = some r →
      rateOf cr r r.exchangeRate = rateOf cr' r r.exchangeRate)
    (borrows : ∀ s ∈ a.usedBorrows, ∀ r, m.reserveAt? s.reserve = some r →
      rateOf br r r.cumulativeBorrowRate = rateOf br' r r.cumulativeBorrowRate)
    (address : String) : value m address a cr br = value m address a cr' br' := by
  unfold value
  rw [Market.valueDeposits_congr deposits, Market.valueBorrows_congr borrows]

/-- What else the maps hold does not count. -/
theorem valueWith_congr (keyed : m.Keyed) (agrees : maps.Agrees m slot)
    (agrees' : maps'.Agrees m slot) (covers : maps.Covers a) (covers' : maps'.Covers a)
    (address : String) : valueWith m maps address a = valueWith m maps' address a := by
  refine value_congr (fun s hs r found => rateOf_congr _ ?_)
    (fun s hs r found => rateOf_congr _ ?_) address
  · rw [keyed.address_eq found]
    exact RateMap.find?_congr agrees.collateral agrees'.collateral (covers.collateral s hs)
      (covers'.collateral s hs)
  · rw [keyed.address_eq found]
    exact RateMap.find?_congr agrees.borrow agrees'.borrow (covers.borrow s hs)
      (covers'.borrow s hs)

theorem projects_of_valueAt {address : String} {o : Obligation}
    (h : valueAt m slot address a = .ok o) : m.Projects slot a := by
  obtain ⟨own, filled, -⟩ := Outcome.bind_eq_ok_iff.mp h
  exact (Market.addRates_ok_iff (agrees_empty m slot) a).mp ⟨own, filled⟩

theorem valueAt_eq_valueWith (keyed : m.Keyed) (agrees : maps.Agrees m slot)
    (covers : maps.Covers a) (projects : m.Projects slot a) (address : String) :
    valueAt m slot address a = valueWith m maps address a := by
  obtain ⟨own, filled⟩ := (Market.addRates_ok_iff (agrees_empty m slot) a).mpr projects
  obtain ⟨own_agrees, own_covers, -⟩ := Market.addRates_spec (agrees_empty m slot) filled
  rw [← valueWith_congr keyed own_agrees agrees own_covers covers, valueAt, Market.ratesFor, filled]
  rfl

/-! ## Batches -/

theorem load_outcome (m : Market) (s : Snapshot) (address : String) (slot : Option Int) :
    (load m s address slot).outcome =
      match s.obligation? address with
      | none => .ok none
      | some a => some <$> valueAt m (slot.getD s.slot) address a := by
  unfold load
  cases s.obligation? address with
  | none => rfl
  | some a => exact Logged.map_outcome some _

theorem sharedRates_ok_iff (m : Market) (slot : Int) (accounts : List (Option ObligationAccount)) :
    (∃ maps, sharedRates m slot accounts = .ok maps) ↔
      ∀ a, some a ∈ accounts → m.Projects slot a := by
  unfold sharedRates
  rw [Market.addAllRates_ok_iff (agrees_empty m slot)]
  simp

theorem sharedRates_spec {accounts : List (Option ObligationAccount)}
    (shared : sharedRates m slot accounts = .ok maps) :
    maps.Agrees m slot ∧ ∀ a, some a ∈ accounts → maps.Covers a := by
  obtain ⟨agrees, covers, -⟩ := Market.addAllRates_spec (agrees_empty m slot) shared
  exact ⟨agrees, fun a listed => covers a (List.mem_filterMap.mpr ⟨some a, listed, rfl⟩)⟩

/-- Once the shared maps are filled, a batch is a list of single loads. -/
theorem loadAll_eq_mapM_load (keyed : m.Keyed) {s : Snapshot} {addresses : List String}
    (shared : sharedRates m slot (addresses.map s.obligation?) = .ok maps) :
    loadAll m s addresses (some slot) =
      addresses.mapM fun address => (load m s address (some slot)).outcome := by
  obtain ⟨agrees, covers⟩ := sharedRates_spec shared
  have projects := (sharedRates_ok_iff m slot _).mp ⟨maps, shared⟩
  unfold loadAll
  rw [Option.getD_some, shared]
  refine Outcome.mapM_congr fun address listed => ?_
  rw [load_outcome, Option.getD_some]
  cases found : s.obligation? address with
  | none => rfl
  | some a =>
    have held : some a ∈ addresses.map s.obligation? := List.mem_map.mpr ⟨address, listed, found⟩
    show some <$> _ = some <$> _
    rw [valueAt_eq_valueWith keyed agrees (covers a held) (projects a held)]

/-- A batch gives a result exactly if every single load does, and then the same one for each
    address, none for an address without an account. -/
structure LoadsAsSingles (m : Market) (s : Snapshot) (addresses : List String) (slot : Int) :
    Prop where
  ok_iff : (∃ results, loadAll m s addresses (some slot) = .ok results) ↔
    ∀ address ∈ addresses, ∃ r, (load m s address (some slot)).outcome = .ok r
  entries : ∀ results, loadAll m s addresses (some slot) = .ok results →
    List.Forall₂ (fun address r => (load m s address (some slot)).outcome = .ok r)
      addresses results

theorem loadAll_as_singles {m : Market} (keyed : m.Keyed) (s : Snapshot) (addresses : List String)
    (slot : Int) : LoadsAsSingles m s addresses slot := by
  have alike {maps : RateMaps}
      (shared : sharedRates m slot (addresses.map s.obligation?) = .ok maps) :=
    loadAll_eq_mapM_load keyed shared
  refine ⟨⟨?_, ?_⟩, ?_⟩
  · rintro ⟨results, h⟩
    obtain ⟨maps, shared, -⟩ := Outcome.bind_eq_ok_iff.mp h
    rw [alike shared] at h
    exact Outcome.exists_mapM_eq_ok_iff.mp ⟨results, h⟩
  · intro single
    have projects : ∀ a, some a ∈ addresses.map s.obligation? → m.Projects slot a := by
      intro a held
      obtain ⟨address, listed, found⟩ := List.mem_map.mp held
      obtain ⟨r, loaded⟩ := single address listed
      rw [load_outcome, found] at loaded
      obtain ⟨o, valued, -⟩ := Outcome.map_eq_ok_iff.mp loaded
      exact projects_of_valueAt valued
    obtain ⟨maps, shared⟩ := (sharedRates_ok_iff m slot _).mpr projects
    rw [alike shared]
    exact Outcome.exists_mapM_eq_ok_iff.mpr single
  · intro results h
    obtain ⟨maps, shared, -⟩ := Outcome.bind_eq_ok_iff.mp h
    rw [alike shared] at h
    exact Outcome.mapM_eq_ok_iff.mp h

theorem loadAll_as_singles_sample : Sample.market.Keyed ∧
    LoadsAsSingles Sample.market Sample.snapshot ["obligation", "nobody", "obligation"] 2000 ∧
    (loadAll Sample.market Sample.snapshot ["obligation", "nobody", "obligation"]
      (some 2000)).isOk = true :=
  have keyed : Sample.market.Keyed := by decide
  ⟨keyed, loadAll_as_singles keyed _ _ _, by decide +kernel⟩

end Obligation

end Lending
