/-
  Lending.Proofs.Obligation.Refreshed — accounts loaded at a slot not after the last refresh.

  The loader projects rates by other computations than a reserve uses for its own: the supply
  is estimated, the cumulative rate is multiplied by a growth. Not after the last refresh both
  give the reserve's own rates, digit by digit. So the loaded obligation is the one valued
  without rates, and either there are both or neither (`load_refreshed`).
-/
import Lending.Proofs.Obligation.Missing

namespace Lending

open Outcome

namespace Obligation

section
variable {m : Market} {a : ObligationAccount} {slot : ℤ} {address : String} (opened : m.Opened)
  (not_later : NotLater m a slot)
include opened not_later

theorem valueAt_of_not_later (keyed : m.Keyed) {maps : RateMaps}
    (rated : m.ratesFor slot a = .ok maps) (address : String) :
    valueAt m slot address a = value m address a none none := by
  unfold valueAt
  rw [rated]
  exact ((ratesAsOf_slot keyed rated).refresh opened not_later).value_eq (ratesAsOf_refresh m a)
    address

/-- Valued without rates, an account can be projected: its reserves gave the same rates. -/
theorem projects_of_value {o : Obligation} (h : value m address a none none = .ok o) :
    m.Projects slot a := by
  obtain ⟨-, ds, bs, hds, hbs, -⟩ := value_sums h
  constructor
  · intro s used
    obtain ⟨v, valued⟩ := exists_mapM_eq_ok_iff.mp ⟨ds, hds⟩ s used
    obtain ⟨r, rate, factor, worth⟩ := s.worth valued
    have found := worth.reserveAt
    -- the deposit was divided by its reserve's own rate, which is the projected one
    refine ⟨rate, ?_⟩
    rw [Market.collateralRateAt_eq found]
    exact (Pool.exchangeRateAsOf_of_not_later (not_later.collateral s used r found) _).trans
      worth.rate_eq
  · intro s used
    obtain ⟨v, valued⟩ := exists_mapM_eq_ok_iff.mp ⟨bs, hbs⟩ s used
    obtain ⟨r, rate, recordedRate, factor, worth⟩ := s.worth valued
    have found := worth.reserveAt
    obtain ⟨f⟩ := Pool.figures_of_openReserve (opened.openReserve found)
    refine ⟨rate, ?_⟩
    rw [Market.borrowRateAt_eq found]
    exact (Pool.cumulativeBorrowRateAsOf_of_not_later f (not_later.borrow s used r found)).trans
      worth.rate_eq

theorem valueAt_eq_ok_iff (keyed : m.Keyed) {o : Obligation} :
    valueAt m slot address a = .ok o ↔ value m address a none none = .ok o := by
  constructor
  · intro h
    obtain ⟨maps, rated, -⟩ := bind_eq_ok_iff.mp h
    rwa [valueAt_of_not_later opened not_later keyed rated] at h
  · intro h
    obtain ⟨maps, rated⟩ := (Market.addRates_ok_iff (RateMaps.agrees_empty m slot) a).mpr
      (projects_of_value opened not_later h)
    rwa [valueAt_of_not_later opened not_later keyed rated]

/-- Both ways fail alike, unless a rate overflows. -/
theorem valueAt_eq_value (keyed : m.Keyed) (unsigned : m.UnsignedIndexes)
    (fits : valueAt m slot address a ≠ .error .overflow) :
    valueAt m slot address a = value m address a none none := by
  have fits : valueAsOf m address a (some slot) ≠ .error .overflow := fits
  cases missing : m.firstMissing? a with
  | none =>
    obtain ⟨cr, br, rates, same⟩ := exists_rates_of_listed opened unsigned fits keyed missing
    exact same.trans ((rates.refresh opened not_later).value_eq (ratesAsOf_refresh m a) address)
  | some x =>
    rw [value_of_missing missing]
    exact valueAsOf_of_missing opened unsigned fits missing

end

/-- Loading an account gives what valuing it as of the last refresh does. -/
structure LoadsAsRefreshed (m : Market) (s : Snapshot) (address : String) (a : ObligationAccount)
    (slot : Option ℤ) : Prop where
  ok_iff : ∀ result, (load m s address slot).outcome = .ok result ↔
    ∃ o, value m address a none none = .ok o ∧ some o = result
  alike : (load m s address slot).outcome ≠ .error .overflow →
    (load m s address slot).outcome = some <$> value m address a none none
  missing : ∀ x, m.firstMissing? a = some x →
    value m address a none none = .error (.reserveNotOnMarket x m.address) ∧
      ((load m s address slot).outcome ≠ .error .overflow →
        (load m s address slot).outcome = .error (.reserveNotOnMarket x m.address))

theorem load_refreshed {m : Market} (keyed : m.Keyed) (opened : m.Opened)
    (unsigned : m.UnsignedIndexes) {s : Snapshot} {address : String} {a : ObligationAccount}
    (held : s.obligation? address = some a) {slot : Option ℤ}
    (not_later : NotLater m a (slot.getD s.slot)) : LoadsAsRefreshed m s address a slot := by
  have loaded : (load m s address slot).outcome =
      some <$> valueAt m (slot.getD s.slot) address a := by
    rw [load_outcome, held]
  have alike (fits : (load m s address slot).outcome ≠ .error .overflow) :
      (load m s address slot).outcome = some <$> value m address a none none := by
    rw [loaded] at fits ⊢
    rw [valueAt_eq_value opened not_later keyed unsigned fun failed => fits (by rw [failed]; rfl)]
  refine ⟨fun result => ?_, alike, fun x missing => ⟨value_of_missing missing _ _ _, ?_⟩⟩
  · rw [loaded, map_eq_ok_iff]
    simp only [valueAt_eq_ok_iff opened not_later keyed]
  · intro fits
    rw [alike fits, value_of_missing missing]
    rfl

/-- At the slot of the last refresh. -/
theorem load_refreshed_sample :
    LoadsAsRefreshed Sample.market Sample.snapshot "obligation" Sample.borrower (some 1000) ∧
    (load Sample.market Sample.snapshot "obligation" (some 1000)).outcome =
      .ok (some Sample.obligation) := by
  have opened : Sample.market.Opened := by decide +kernel
  have not_later : NotLater Sample.market Sample.borrower 1000 := by
    have all : ∀ r ∈ Sample.market.reserves.values, 1000 ≤ r.account.lastUpdate.slot := by decide
    exact ⟨fun _ _ r found => all r (AddressMap.mem_values_of_find? found),
      fun _ _ r found => all r (AddressMap.mem_values_of_find? found)⟩
  have same : LoadsAsRefreshed Sample.market Sample.snapshot "obligation" Sample.borrower
      (some 1000) := load_refreshed (by decide) opened (by decide) (by decide) not_later
  exact ⟨same, (same.ok_iff _).mpr ⟨_, by decide +kernel, rfl⟩⟩

end Obligation

end Lending
