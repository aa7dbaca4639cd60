/-
  Lending.Proofs.Obligation.Refusal — why a leg of an action is refused.

  Before its amount is looked at, a leg is refused for one of three reasons: no reserve has its
  token, the group of the obligation is not configured on the market, or it does not include the
  reserve (`refusal?`). What is looked up for a leg ends with that reason or an overflow
  (`lookUp_of_refused`), and if there is no reason, only with an overflow
  (`Grants.lookUp_overflowOnly`). A finite amount is never at fault but for an
  overflow (`addLeg_valid`).
-/
import Lending.Proofs.Obligation.Interleaving
import Lending.Proofs.Obligation.OutsideGroup
import Lending.Proofs.Obligation.Valuable

namespace Lending

open Outcome

def Side.purpose : Side → String
  | .deposits => "deposit in"
  | .borrows => "borrow from"

namespace Obligation

def lookUp (o : Obligation) (m : Market) (mint : String) : Side → Outcome Unit
  | .deposits => do
    let r ← m.reserveOfMint mint
    let _ ← m.collateralTerms o.elevationGroup r
    o.requireGroup r Side.deposits.purpose
  | .borrows => do
    let r ← m.reserveOfMint mint
    o.requireGroup r Side.borrows.purpose

def refusal? (o : Obligation) (m : Market) (mint : String) (side : Side) : Option Fault :=
  match m.reserveOfMint? mint with
  | none => some (.noReserveForMint mint)
  | some r =>
    if o.elevationGroup = 0 then none
    else if side = .deposits ∧ ¬ (m.elevationGroup o.elevationGroup).isOk then
      some (.groupNotConfigured o.elevationGroup m.address)
    else if r.elevationGroups.contains o.elevationGroup then none
    else some (.groupDowngrade side.purpose)

/-- A leg that can be done: its token has a reserve which the obligation may use, and the terms
    of a deposit are known. -/
structure Grants (o : Obligation) (m : Market) (mint : String) (side : Side) (r : Reserve) :
    Prop where
  found : m.reserveOfMint mint = .ok r
  admitted : o.Admits r
  configured : side = .deposits →
    o.elevationGroup = 0 ∨ ∃ g, m.elevationGroup o.elevationGroup = .ok g

section
variable {o : Obligation} {m : Market} {mint : String} {side : Side}

theorem refusal?_kinds {fault : Fault} (h : o.refusal? m mint side = some fault) :
    fault = .noReserveForMint mint ∨ fault = .groupNotConfigured o.elevationGroup m.address ∨
      fault = .groupDowngrade side.purpose := by
  unfold refusal? at h
  repeat' split at h
  · cases h
    exact .inl rfl
  · cases h
  · cases h
    exact .inr (.inl rfl)
  · cases h
  · cases h
    exact .inr (.inr rfl)

theorem grants_of_not_refused (h : o.refusal? m mint side = none) :
    ∃ r, o.Grants m mint side r := by
  unfold refusal? at h
  split at h
  · cases h
  rename_i r found
  have found : m.reserveOfMint mint = .ok r := ofOption_eq_ok_iff.mpr found
  by_cases none : o.elevationGroup = 0
  · exact ⟨r, found, .inl none, fun _ => .inl none⟩
  rw [if_neg none] at h
  split at h
  · cases h
  rename_i configured
  split at h
  · rename_i listed
    refine ⟨r, found, .inr listed, fun deposit => .inr (exists_of_isOk ?_)⟩
    by_contra missing
    exact configured ⟨deposit, missing⟩
  · cases h

/-! ## What is looked up -/

theorem Grants.lookUp_overflowOnly {r : Reserve} (fit : o.Grants m mint side r) :
    (o.lookUp m mint side).OverflowOnly := by
  cases side with
  | deposits =>
    refine .bind (.of_eq fit.found) fun own same => ?_
    cases fit.found.symm.trans same
    exact .bind (Market.collateralTerms_overflowOnly (fit.configured rfl) r) fun terms _ =>
      .of_eq (requireGroup_of_admits fit.admitted _)
  | borrows =>
    refine .bind (.of_eq fit.found) fun own same => ?_
    cases fit.found.symm.trans same
    exact .of_eq (requireGroup_of_admits fit.admitted _)

theorem lookUp_of_refused {fault : Fault} (h : o.refusal? m mint side = some fault) :
    ∃ g, o.lookUp m mint side = .error g ∧ (g = .overflow ∨ g = fault) := by
  unfold refusal? at h
  split at h
  · rename_i missing
    cases h
    have missing : m.reserveOfMint mint = .error (.noReserveForMint mint) := by
      unfold Market.reserveOfMint
      rw [missing]
      rfl
    refine ⟨_, ?_, .inr rfl⟩
    cases side <;> · unfold lookUp; rw [missing]; rfl
  rename_i r found
  have found : m.reserveOfMint mint = .ok r := ofOption_eq_ok_iff.mpr found
  split at h
  · cases h
  rename_i grouped
  split at h
  · rename_i missing
    cases h
    obtain ⟨rfl, missing⟩ := missing
    have terms := Market.collateralTerms_of_not_configured (m := m) grouped
      (fun ⟨g, given⟩ => missing (by rw [given]; rfl)) r
    refine ⟨_, ?_, .inr rfl⟩
    unfold lookUp
    rw [found]
    show m.collateralTerms o.elevationGroup r >>= _ = _
    rw [terms]
    rfl
  rename_i configured
  split at h
  · cases h
  rename_i unlisted
  cases h
  have required := requireGroup_of_not_admits (o := o) (r := r)
    (fun admitted => admitted.elim grouped unlisted) side.purpose
  cases side with
  | borrows =>
    refine ⟨_, ?_, .inr rfl⟩
    unfold lookUp
    rw [found]
    exact required
  | deposits =>
    have configured : ∃ g, m.elevationGroup o.elevationGroup = .ok g := by
      refine exists_of_isOk ?_
      by_contra missing
      exact configured ⟨rfl, missing⟩
    unfold lookUp
    rw [found]
    show ∃ g, m.collateralTerms o.elevationGroup r >>= _ = .error g ∧ _
    cases given : m.collateralTerms o.elevationGroup r with
    | error g =>
      exact ⟨g, rfl, .inl (Market.collateralTerms_overflowOnly (.inr configured) r g given)⟩
    | ok terms => exact ⟨_, required, .inr rfl⟩

theorem lookUp_deposits_eq_ok (h : o.lookUp m mint .deposits = .ok ()) :
    ∃ r terms, m.reserveOfMint mint = .ok r ∧ m.collateralTerms o.elevationGroup r = .ok terms ∧
      o.requireGroup r "deposit in" = .ok () := by
  obtain ⟨r, found, h⟩ := bind_eq_ok_iff.mp h
  obtain ⟨terms, given, h⟩ := bind_eq_ok_iff.mp h
  exact ⟨r, terms, found, given, h⟩

theorem lookUp_borrows_eq_ok (h : o.lookUp m mint .borrows = .ok ()) :
    ∃ r, m.reserveOfMint mint = .ok r ∧ o.requireGroup r "borrow from" = .ok () :=
  bind_eq_ok_iff.mp h

end

end Obligation

/-! ## Finite amounts -/

theorem Leg.signed_overflowOnly (leg : Leg) : leg.signed.OverflowOnly := by
  obtain ⟨kind, amount, mint⟩ := leg
  cases kind
  · exact .pure _
  · exact negated_overflowOnly _
  · exact .pure _
  · exact negated_overflowOnly _

theorem Outcome.OverflowOnly.valid {o : Outcome α} (h : o.OverflowOnly) :
    o.FaultsIn (· ≠ .invalidOperation) := h.faultsIn nofun

theorem Market.reserveOfMint_valid (m : Market) (mint : String) :
    (m.reserveOfMint mint).FaultsIn (· ≠ .invalidOperation) := by
  unfold reserveOfMint
  cases m.reserveOfMint? mint with
  | none =>
    rintro fault ⟨⟩
    nofun
  | some r => exact .pure r

theorem Market.collateralTerms_valid (m : Market) (group : Int) (r : Reserve) :
    (m.collateralTerms group r).FaultsIn (· ≠ .invalidOperation) := by
  by_cases none : group = 0
  · exact (collateralTerms_overflowOnly (.inl none) r).valid
  by_cases configured : ∃ g, m.elevationGroup group = .ok g
  · exact (collateralTerms_overflowOnly (.inr configured) r).valid
  · rw [collateralTerms_of_not_configured none configured]
    rintro fault ⟨⟩
    nofun

theorem Obligation.requireGroup_valid (o : Obligation) (r : Reserve) (purpose : String) :
    (o.requireGroup r purpose).FaultsIn (· ≠ .invalidOperation) := by
  unfold requireGroup
  split
  · rintro fault ⟨⟩
    nofun
  · exact .pure ()

/-- Nothing is worked out from a zero for a leg of a finite amount. -/
theorem Obligation.addLeg_valid {m : Market} (opened : m.Opened) (o : Obligation) (s : Scenario)
    (leg : Leg) : (o.addLeg m s leg).FaultsIn (· ≠ .invalidOperation) := by
  have priced {r : Reserve} (found : m.reserveOfMint leg.mint = .ok r) (amount : Decimal) :
      (r.valueOf amount).FaultsIn (· ≠ .invalidOperation) := by
    obtain ⟨listed, -⟩ := Market.mint_of_reserveOfMint found
    obtain ⟨factor, factor_eq, factor_ne⟩ := Pool.exists_mintFactor_of_openReserve (opened r listed)
    exact (Pool.valueOf_overflowOnly factor_eq factor_ne amount).valid
  rw [addLeg_eq]
  refine (Leg.signed_overflowOnly leg).valid.bind fun amount _ => ?_
  cases leg.kind.side with
  | deposits =>
    exact (m.reserveOfMint_valid leg.mint).bind fun r found =>
      (m.collateralTerms_valid _ r).bind fun _ _ => (o.requireGroup_valid r _).bind fun _ _ =>
      (priced found amount).bind fun _ _ =>
      (ObligationStats.addDeposit_overflowOnly _ _ _).valid.bind fun _ _ =>
      (Position.add_overflowOnly _ _ _).valid.bind fun _ _ => .pure _
  | borrows =>
    exact (m.reserveOfMint_valid leg.mint).bind fun r found =>
      (o.requireGroup_valid r _).bind fun _ _ =>
      (Reserve.debtWeight_overflowOnly _ _).valid.bind fun _ _ =>
      (priced found amount).bind fun _ _ => (mul_overflowOnly _ _).valid.bind fun _ _ =>
      (ObligationStats.addBorrow_overflowOnly _ _ _).valid.bind fun _ _ =>
      (Position.add_overflowOnly _ _ _).valid.bind fun _ _ => .pure _

end Lending
