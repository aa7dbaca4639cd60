/-
  Lending.Proofs.Market.Eased — a market that lends on easier terms.

  Its pools are the same but for the limit on their debt, which is no lower, and their borrow
  factor, which is no higher (`Pool.Eased`). One reserve opened on easier terms is enough
  (`Market.eased_insert`). All else that a pool gives stays, so reserves are found at the same
  place, deposits count on the same terms, and the loader projects the same rates
  (`Eased.ratesFor_eq`).
-/
import Lending.Obligation.RateMaps
import Lending.Proofs.Market.Keyed

namespace Lending

open Outcome

/-! ## Pools -/

namespace Pool

def withDebtTerms (p : Pool) (borrowLimit borrowFactorPct : ℤ) : Pool :=
  { p with account := { p.account with
      config := { p.account.config with borrowLimit, borrowFactorPct } } }

section
variable (p : Pool) (limit factor : ℤ)

@[simp] theorem withDebtTerms_self :
    p.withDebtTerms p.config.borrowLimit p.config.borrowFactorPct = p := rfl

@[simp] theorem address_withDebtTerms : (p.withDebtTerms limit factor).address = p.address := rfl

@[simp] theorem mint_withDebtTerms : (p.withDebtTerms limit factor).mint = p.mint := rfl

@[simp] theorem mintFactor_withDebtTerms :
    (p.withDebtTerms limit factor).mintFactor = p.mintFactor := rfl

@[simp] theorem available_withDebtTerms :
    (p.withDebtTerms limit factor).available = p.available := rfl

@[simp] theorem borrowed_withDebtTerms :
    (p.withDebtTerms limit factor).borrowed = p.borrowed := rfl

@[simp] theorem exchangeRate_withDebtTerms :
    (p.withDebtTerms limit factor).exchangeRate = p.exchangeRate := rfl

@[simp] theorem cumulativeBorrowRate_withDebtTerms :
    (p.withDebtTerms limit factor).cumulativeBorrowRate = p.cumulativeBorrowRate := rfl

@[simp] theorem exchangeRateAt_withDebtTerms (slot bps : ℤ) :
    (p.withDebtTerms limit factor).exchangeRateAt slot bps = p.exchangeRateAt slot bps := rfl

@[simp] theorem cumulativeBorrowRateAt_withDebtTerms (slot : ℤ) :
    (p.withDebtTerms limit factor).cumulativeBorrowRateAt slot = p.cumulativeBorrowRateAt slot :=
  rfl

@[simp] theorem withinDebtOutflow_withDebtTerms (amount : Decimal) (slot : ℤ) :
    (p.withDebtTerms limit factor).withinDebtOutflow amount slot =
      p.withinDebtOutflow amount slot := rfl

@[simp] theorem netOfBorrowFee_withDebtTerms (amount : Decimal) :
    (p.withDebtTerms limit factor).netOfBorrowFee amount = p.netOfBorrowFee amount := rfl

end

/-- The same pool, but for a limit on its debt that is no lower and a borrow factor that is no
    higher. -/
def Eased (p p' : Pool) : Prop :=
  ∃ limit factor, p.config.borrowLimit ≤ limit ∧ factor ≤ p.config.borrowFactorPct ∧
    p' = p.withDebtTerms limit factor

theorem Eased.refl (p : Pool) : p.Eased p :=
  ⟨_, _, le_rfl, le_rfl, p.withDebtTerms_self.symm⟩

end Pool

/-! ## Reserves -/

structure Reserve.Eased (r r' : Reserve) : Prop where
  opened : r.toPool.openReserve = .ok r
  reopened : r'.toPool.openReserve = .ok r'
  pool : r.toPool.Eased r'.toPool

/-- A debt weighs no more on eased terms. -/
theorem Reserve.Eased.weight_anti {r r' : Reserve} (h : r.Eased r') {group : ℤ}
    {weight weight' : Decimal} (weighed : r.debtWeight group = .ok weight)
    (weighed' : r'.debtWeight group = .ok weight') : weight'.toRat ≤ weight.toRat := by
  unfold debtWeight at weighed weighed'
  split at weighed
  · rename_i grouped
    rw [if_pos grouped] at weighed'
    cases weighed
    cases weighed'
    exact le_rfl
  · rename_i alone
    rw [if_neg alone] at weighed'
    obtain ⟨limit, factor, -, less, same⟩ := h.pool
    have less' : r'.stats.borrowFactorPct ≤ r.stats.borrowFactorPct := by
      rw [(Pool.settings_of_openReserve h.opened).borrowFactorPct,
        (Pool.settings_of_openReserve h.reopened).borrowFactorPct, same]
      exact less
    rw [shareOfPercent_value weighed, shareOfPercent_value weighed']
    refine Truncation.truncate_mono (div_le_div_of_nonneg_right ?_ (by norm_num))
    exact_mod_cast less'

/-! ## Markets -/

structure Market.Eased (m m' : Market) : Prop where
  address : m.address = m'.address
  account : m.account = m'.account
  reserves : List.Forall₂ (fun entry entry' => entry.1 = entry'.1 ∧ entry.2.Eased entry'.2)
    m.reserves.entries m'.reserves.entries

theorem Market.Eased.refl {m : Market} (opened : m.Opened) : m.Eased m where
  address := rfl
  account := rfl
  reserves := List.forall₂_same.mpr fun entry listed =>
    have own := opened entry.2 (List.mem_map_of_mem listed)
    ⟨rfl, own, own, .refl _⟩

/-- A market is eased by one reserve of it that is opened again on easier terms. -/
theorem Market.eased_insert {m : Market} (opened : m.Opened) {address : String} {r r' : Reserve}
    (found : m.reserveAt? address = some r) (eased : r.Eased r') :
    m.Eased { m with reserves := m.reserves.insert address r' } where
  address := rfl
  account := rfl
  reserves := AddressMap.forall₂_insert_of_find?
    (fun own listed => ⟨opened own listed, opened own listed, .refl _⟩) found eased

namespace Market.Eased

variable {m m' : Market} (h : m.Eased m')
include h

/-- Reserves at the same address have eased pools. -/
theorem reserveAt? {address : String} {r r' : Reserve} (found : m.reserveAt? address = some r)
    (found' : m'.reserveAt? address = some r') : r.Eased r' := by
  have related := AddressMap.rel_find? h.reserves address
  unfold Market.reserveAt? at found found'
  rw [found, found'] at related
  cases related
  assumption

theorem reserveOfMint {mint : String} {r r' : Reserve} (found : m.reserveOfMint mint = .ok r)
    (found' : m'.reserveOfMint mint = .ok r') : r.Eased r' := by
  have sameMint : ∀ r r' : Reserve, r.Eased r' → (r.mint == mint) = (r'.mint == mint) := by
    rintro r r' ⟨-, -, limit, factor, -, -, same⟩
    rw [same, Pool.mint_withDebtTerms]
  have related := AddressMap.rel_find?_values h.reserves sameMint
  have found := ofOption_eq_ok_iff.mp found
  have found' := ofOption_eq_ok_iff.mp found'
  unfold reserveOfMint? at found found'
  rw [found, found'] at related
  cases related
  assumption

theorem reserveAt_bind {α : Type} {figure figure' : Reserve → Outcome α}
    (same : ∀ r r' : Reserve, r.Eased r' → figure r = figure' r') (address : String) :
    (m.reserveAt address >>= figure) = (m'.reserveAt address >>= figure') := by
  have related := AddressMap.rel_find? h.reserves address
  unfold reserveAt Market.reserveAt?
  rw [h.address]
  cases found : m.reserves.find? address with
  | none =>
    rw [found] at related
    cases found' : m'.reserves.find? address with
    | none => rfl
    | some r' =>
      rw [found'] at related
      cases related
  | some r =>
    rw [found] at related
    cases found' : m'.reserves.find? address with
    | none =>
      rw [found'] at related
      cases related
    | some r' =>
      rw [found'] at related
      cases related
      exact same r r' ‹_›

/-- What a deposit counts with does not depend on the terms of debts. -/
theorem collateralTerms_eq {r r' : Reserve} (eased : r.Eased r') (group : ℤ) :
    m.collateralTerms group r = m'.collateralTerms group r' := by
  obtain ⟨limit, factor, -, -, same⟩ := eased.pool
  have kept := Pool.settings_of_openReserve eased.opened
  have kept' := Pool.settings_of_openReserve eased.reopened
  rw [same] at kept'
  have ltv : r.stats.loanToValue = r'.stats.loanToValue :=
    Except.ok.inj (kept.loanToValue.symm.trans kept'.loanToValue)
  have threshold : r.stats.liquidationThreshold = r'.stats.liquidationThreshold :=
    Except.ok.inj (kept.liquidationThreshold.symm.trans kept'.liquidationThreshold)
  unfold collateralTerms elevationGroup
  rw [ltv, threshold, h.account, h.address]

/-- The loader projects the same rates for accounts that refer to the same reserves. -/
theorem ratesFor_eq {a a' : ObligationAccount}
    (deposits : a.deposits.map (·.reserve) = a'.deposits.map (·.reserve))
    (borrows : a.borrows.map (·.reserve) = a'.borrows.map (·.reserve)) (slot : ℤ) :
    m.ratesFor slot a = m'.ratesFor slot a' := by
  have collateral : m.collateralRateAt slot = m'.collateralRateAt slot := by
    funext address
    refine h.reserveAt_bind ?_ address
    rintro r r' ⟨-, -, limit, factor, -, -, same⟩
    rw [same, Pool.exchangeRateAt_withDebtTerms, referralFeeBps, referralFeeBps, h.account]
  have borrow : m.borrowRateAt slot = m'.borrowRateAt slot := by
    funext address
    refine h.reserveAt_bind ?_ address
    rintro r r' ⟨-, -, limit, factor, -, -, same⟩
    rw [same, Pool.cumulativeBorrowRateAt_withDebtTerms]
  unfold ratesFor addRates fillRates
  rw [collateral, borrow, deposits, borrows]

end Market.Eased

end Lending
