/-
  Lending.Proofs.Obligation.AsOf — an account valued as of the last refresh, or at a slot.

  Without rate maps each reserve gives its own rates, as of its last refresh; the loader enters
  those of a slot. Either way a used slot is valued with the rate of its reserve as of the same
  point in time (`RatesAsOf`), and beyond that the two ways do not differ
  (`exists_rates_of_valueAsOf`, `RatesAsOf.value_eq`). At a slot that is not after any of the
  refreshes the points in time do not differ either (`RatesAsOf.refresh`).
-/
import Lending.Proofs.Market.Keyed
import Lending.Proofs.Obligation.Batch
import Lending.Proofs.Obligation.Totals
import Lending.Proofs.Reserve.AsOf

namespace Lending

open Outcome

namespace Obligation

/-- The obligation of an account, valued as of the last refresh, or loaded for a slot. -/
def valueAsOf (m : Market) (address : String) (a : ObligationAccount) :
    Option ℤ → Outcome Obligation
  | none => value m address a none none
  | some slot => valueAt m slot address a

end Obligation

structure RatesAsOf (m : Market) (a : ObligationAccount) (time : Option ℤ)
    (collateral borrow : Option RateMap) : Prop where
  collateral : ∀ s ∈ a.usedDeposits, ∀ r, m.reserveAt? s.reserve = some r →
    rateOf collateral r r.exchangeRate = r.exchangeRateAsOf m.referralFeeBps time
  borrow : ∀ s ∈ a.usedBorrows, ∀ r, m.reserveAt? s.reserve = some r →
    rateOf borrow r r.cumulativeBorrowRate = r.cumulativeBorrowRateAsOf time

section
variable {m : Market} {a : ObligationAccount} {address : String}

theorem ratesAsOf_refresh (m : Market) (a : ObligationAccount) : RatesAsOf m a none none none :=
  ⟨fun _ _ _ _ => rfl, fun _ _ _ _ => rfl⟩

theorem ratesAsOf_slot (keyed : m.Keyed) {slot : ℤ} {maps : RateMaps}
    (filled : m.ratesFor slot a = .ok maps) :
    RatesAsOf m a (some slot) (some maps.collateral) (some maps.borrow) := by
  obtain ⟨agrees, covers, -⟩ := Market.addRates_spec (RateMaps.agrees_empty m slot) filled
  constructor
  · intro s used r found
    obtain ⟨rate, entered⟩ := covers.collateral s used
    have own := agrees.collateral _ _ entered
    rw [Market.collateralRateAt_eq found] at own
    rw [← keyed.address_eq found] at entered
    exact (rateOf_some_eq_ok_iff.mpr entered).trans own.symm
  · intro s used r found
    obtain ⟨rate, entered⟩ := covers.borrow s used
    have own := agrees.borrow _ _ entered
    rw [Market.borrowRateAt_eq found] at own
    rw [← keyed.address_eq found] at entered
    exact (rateOf_some_eq_ok_iff.mpr entered).trans own.symm

/-- Rates as of one point in time value an account alike. -/
theorem RatesAsOf.value_eq {time : Option ℤ} {cr br cr' br' : Option RateMap}
    (h : RatesAsOf m a time cr br) (h' : RatesAsOf m a time cr' br') (address : String) :
    Obligation.value m address a cr br = Obligation.value m address a cr' br' :=
  Obligation.value_congr
    (fun s used r found => (h.collateral s used r found).trans (h'.collateral s used r found).symm)
    (fun s used r found => (h.borrow s used r found).trans (h'.borrow s used r found).symm) address

structure NotLater (m : Market) (a : ObligationAccount) (slot : ℤ) : Prop where
  collateral : ∀ s ∈ a.usedDeposits, ∀ r, m.reserveAt? s.reserve = some r →
    slot ≤ r.account.lastUpdate.slot
  borrow : ∀ s ∈ a.usedBorrows, ∀ r, m.reserveAt? s.reserve = some r →
    slot ≤ r.account.lastUpdate.slot

/-- Not after the last refresh, the rates at a slot are those of the refresh. -/
theorem RatesAsOf.refresh (opened : m.Opened) {slot : ℤ} (not_later : NotLater m a slot)
    {cr br : Option RateMap} (h : RatesAsOf m a (some slot) cr br) : RatesAsOf m a none cr br := by
  constructor
  · intro s used r found
    rw [h.collateral s used r found]
    exact Pool.exchangeRateAsOf_of_not_later (not_later.collateral s used r found) _
  · intro s used r found
    obtain ⟨f⟩ := Pool.figures_of_openReserve (opened.openReserve found)
    rw [h.borrow s used r found]
    exact Pool.cumulativeBorrowRateAsOf_of_not_later f (not_later.borrow s used r found)

/-- What was valued was valued with the rates of its time. -/
theorem exists_rates_of_valueAsOf (keyed : m.Keyed) {time : Option ℤ} {o : Obligation}
    (h : Obligation.valueAsOf m address a time = .ok o) :
    ∃ cr br, RatesAsOf m a time cr br ∧ Obligation.value m address a cr br = .ok o := by
  cases time with
  | none => exact ⟨none, none, ratesAsOf_refresh m a, h⟩
  | some slot =>
    obtain ⟨maps, filled, valued⟩ := bind_eq_ok_iff.mp h
    exact ⟨_, _, ratesAsOf_slot keyed filled, valued⟩

end

end Lending
