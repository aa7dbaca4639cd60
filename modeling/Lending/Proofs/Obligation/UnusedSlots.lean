/-
  Lending.Proofs.Obligation.UnusedSlots — unused slots of an account are not seen.

  A slot whose reserve is the null address or the empty text may stand anywhere in an account and
  may hold anything in its other fields, also what cannot be decoded. `Among` tells the slots of
  one list in another that has such slots besides. The used slots are the same (`Among.used`), and
  filling a rate map passes over the others (`Among.fill`). So nothing that
  is worked out for an account changes but the account itself (`unused_slots_invisible`): rates,
  totals, positions, what can still be borrowed or withdrawn, and how any of it fails.
-/
import Lending.Obligation.Limits
import Lending.Proofs.Obligation.Batch

namespace Lending

open Outcome

/-! ## Slots -/

/-- The slots of the first list are those of the second, in order, but for unused ones. -/
inductive Among {σ : Type} (reserve : σ → String) : List σ → List σ → Prop where
  | nil : Among reserve [] []
  | keep {slots slots' : List σ} (s : σ) (rest : Among reserve slots slots') :
      Among reserve (s :: slots) (s :: slots')
  | unused {slots slots' : List σ} (s : σ) (free : isUsedAddress (reserve s) = false)
      (rest : Among reserve slots slots') : Among reserve slots (s :: slots')

namespace Among

variable {σ : Type} {reserve : σ → String} {slots slots' : List σ}

theorem used (h : Among reserve slots slots') :
    slots'.filter (isUsedAddress <| reserve ·) = slots.filter (isUsedAddress <| reserve ·) := by
  induction h with
  | nil => rfl
  | keep s _ ih => rw [List.filter_cons, List.filter_cons, ih]
  | unused s free _ ih => rw [List.filter_cons_of_neg (by simp [free]), ih]

/-- Filling does not look at what an unused address would be given. -/
theorem fill (h : Among reserve slots slots') (rate : String → Outcome Decimal) (map : RateMap) :
    RateMap.fill rate map (slots'.map reserve) = RateMap.fill rate map (slots.map reserve) := by
  induction h generalizing map with
  | nil => rfl
  | keep s _ ih =>
    simp only [List.map_cons, RateMap.fill, ih]
  | unused s free _ ih =>
    rw [List.map_cons, RateMap.fill_cons_passed (by simp [free]), ih]

end Among

/-! ## Accounts -/

structure ObligationAccount.Spread (a a' : ObligationAccount) : Prop where
  deposits : Among CollateralSlot.reserve a.deposits a'.deposits
  borrows : Among DebtSlot.reserve a.borrows a'.borrows
  others : a' = { a with deposits := a'.deposits, borrows := a'.borrows }

def Obligation.of (o : Obligation) (account : ObligationAccount) : Obligation := { o with account }

namespace ObligationAccount.Spread

variable {a a' : ObligationAccount} (h : a.Spread a')
include h

theorem usedDeposits : a'.usedDeposits = a.usedDeposits := h.deposits.used

theorem usedBorrows : a'.usedBorrows = a.usedBorrows := h.borrows.used

theorem elevationGroup : a'.elevationGroup = a.elevationGroup := by rw [h.others]

theorem reserves : a'.reserves = a.reserves := by
  unfold ObligationAccount.reserves
  rw [h.usedDeposits, h.usedBorrows]

theorem fillRates (m : Market) (slot : ℤ) (maps : RateMaps) :
    m.fillRates slot maps a' = m.fillRates slot maps a := by
  unfold Market.fillRates
  rw [h.deposits.fill, h.borrows.fill]

theorem ratesFor (m : Market) (slot : ℤ) : m.ratesFor slot a' = m.ratesFor slot a := by
  unfold Market.ratesFor Market.addRates
  rw [h.fillRates]

theorem value (m : Market) (address : String) (cr br : Option RateMap) :
    Obligation.value m address a' cr br = (·.of a') <$> Obligation.value m address a cr br := by
  have groups : m.potentialGroups a' = m.potentialGroups a := by
    unfold Market.potentialGroups
    rw [h.reserves]
  have deposits : m.valueDeposits a' cr = m.valueDeposits a cr := by
    unfold Market.valueDeposits
    rw [h.usedDeposits, h.elevationGroup]
  have borrows : m.valueBorrows a' br = m.valueBorrows a br := by
    unfold Market.valueBorrows
    rw [h.usedBorrows, h.elevationGroup]
  unfold Obligation.value
  rw [groups, deposits, borrows]
  simp only [map_bind, map_pure]
  rfl

theorem valueAt (m : Market) (slot : ℤ) (address : String) :
    Obligation.valueAt m slot address a' = (·.of a') <$> Obligation.valueAt m slot address a := by
  unfold Obligation.valueAt Obligation.valueWith
  rw [h.ratesFor, map_bind]
  exact bind_congr fun maps _ => h.value m address _ _

theorem load (m : Market) {s s' : Snapshot} {address : String}
    (stored : s.obligation? address = some a) (stored' : s'.obligation? address = some a')
    (same_slot : s'.slot = s.slot) (slot : Option ℤ) :
    (Obligation.load m s' address slot).warnings = (Obligation.load m s address slot).warnings ∧
    (Obligation.load m s' address slot).outcome =
      Option.map (·.of a') <$> (Obligation.load m s address slot).outcome := by
  unfold Obligation.load
  rw [stored, stored', same_slot]
  simp only [h.valueAt]
  cases Obligation.valueAt m (slot.getD s.slot) address a <;> exact ⟨rfl, rfl⟩

end ObligationAccount.Spread

/-! ## Limits -/

namespace Obligation

variable {o : Obligation} {account : ObligationAccount}
  (same_group : account.elevationGroup = o.account.elevationGroup)
include same_group

theorem of_elevationGroup : (o.of account).elevationGroup = o.elevationGroup := same_group

theorem of_groupIncludes (r : Reserve) : (o.of account).groupIncludes r = o.groupIncludes r := by
  unfold groupIncludes
  rw [of_elevationGroup same_group]

/-- Of the account only the group counts for what can be borrowed. -/
theorem maxBorrow_of (m : Market) (mint : String) (slot : ℤ) :
    (o.of account).maxBorrow m mint slot = o.maxBorrow m mint slot := by
  unfold maxBorrow lendableRemainder
  simp only [of_groupIncludes same_group]
  rfl

theorem maxWithdraw_of (m : Market) (mint : String) (slot : ℤ) :
    (o.of account).maxWithdraw m mint slot = o.maxWithdraw m mint slot := by
  unfold maxWithdraw withdrawLtv
  simp only [of_groupIncludes same_group, of_elevationGroup same_group]
  rfl

end Obligation

/-- Nothing that is worked out for an account, and no way that it fails, depends on unused
    slots. -/
theorem unused_slots_invisible {a a' : ObligationAccount} (spread : a.Spread a') (m : Market) :
    (∀ slot maps, m.fillRates slot maps a' = m.fillRates slot maps a) ∧
    (∀ slot, m.ratesFor slot a' = m.ratesFor slot a) ∧
    (∀ address cr br, Obligation.value m address a' cr br =
      (·.of a') <$> Obligation.value m address a cr br) ∧
    (∀ (s s' : Snapshot) address slot, s.obligation? address = some a →
      s'.obligation? address = some a' → s'.slot = s.slot →
      (Obligation.load m s' address slot).warnings = (Obligation.load m s address slot).warnings ∧
      (Obligation.load m s' address slot).outcome =
        Option.map (·.of a') <$> (Obligation.load m s address slot).outcome) ∧
    ∀ o : Obligation, o.account = a → ∀ mint slot,
      (o.of a').maxBorrow m mint slot = o.maxBorrow m mint slot ∧
      (o.of a').maxWithdraw m mint slot = o.maxWithdraw m mint slot := by
  refine ⟨spread.fillRates m, spread.ratesFor m, spread.value m,
    fun s s' address slot stored stored' same => spread.load m stored stored' same slot, ?_⟩
  rintro o rfl mint slot
  exact ⟨Obligation.maxBorrow_of spread.elevationGroup m mint slot,
    Obligation.maxWithdraw_of spread.elevationGroup m mint slot⟩

/-- The borrower's slots among unused ones that hold what no used slot could. -/
def Sample.spread : ObligationAccount :=
  { borrower with
    deposits := { reserve := "", depositedAmount := -1, rawMarketValue := -1 } ::
      borrower.deposits ++ [{ depositedAmount := -7 }]
    borrows := { cumulativeBorrowRateLimbs := [-1], rawBorrowed := -1 } :: borrower.borrows }

theorem Sample.borrower_spread : borrower.Spread spread where
  deposits := .unused _ (by decide) (.keep _ (.keep _ (.unused _ (by decide) .nil)))
  borrows := .unused _ (by decide) (.keep _ .nil)
  others := rfl

theorem unused_slots_invisible_sample :
    Obligation.value Sample.market "obligation" Sample.spread none none =
      .ok (Sample.obligation.of Sample.spread) ∧
    ∃ x, Sample.obligation.maxBorrow Sample.market "token" 2000 = .ok x ∧
      (Sample.obligation.of Sample.spread).maxBorrow Sample.market "token" 2000 = .ok x := by
  obtain ⟨-, -, valued, -, limits⟩ :=
    unused_slots_invisible Sample.borrower_spread Sample.market
  obtain ⟨x, most⟩ := exists_of_isOk
    (show (Sample.obligation.maxBorrow Sample.market "token" 2000).isOk by decide +kernel)
  refine ⟨?_, x, most, (limits Sample.obligation rfl "token" 2000).1.trans most⟩
  rw [valued, show Obligation.value Sample.market "obligation" Sample.borrower none none =
    .ok Sample.obligation by decide +kernel]
  rfl

end Lending
