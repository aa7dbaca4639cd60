/-
  Lending.Proofs.Obligation.ExtendedLegs — a leg of any amount, infinite ones and no numbers.

  Beside what was looked up for it, only arithmetic can end a leg (`addLeg_faultsIn`), and a
  refused one fails whatever was done before it (`addLeg_of_refused`). Of a leg that can be done
  `SideStep` says all: its amount is a number, and nothing that it writes is negative, though it
  may be infinite. Legs on different sides do not overwrite what the others wrote
  (`written_of_addLegs`).
-/
import Lending.Proofs.Decimal.Special
import Lending.Proofs.Obligation.Extended
import Lending.Proofs.Obligation.Refusal

namespace Lending

open Outcome Literal

namespace Extended

/-! ## Figures -/

namespace Stats

def UnsignedOn (s : Stats) : Side → Prop
  | .deposits => s.totalDeposit.Unsigned ∧ s.borrowLimit.Unsigned ∧
      s.liquidationLimit.Unsigned ∧ s.liquidationLtv.Unsigned
  | .borrows => s.totalBorrow.Unsigned ∧ s.weightedBorrow.Unsigned

variable {s s' : Stats}

theorem addDeposit_faultsIn (s : Stats) (terms : CollateralTerms) (value : Literal) :
    (s.addDeposit terms value).FaultsIn Fault.OfArithmetic :=
  (add_faultsIn _ _).bind fun _ _ => (positiveOrZero_faultsIn _).bind fun _ _ =>
  (mul_faultsIn _ _).bind fun _ _ => (add_faultsIn _ _).bind fun _ _ =>
  (positiveOrZero_faultsIn _).bind fun _ _ => (mul_faultsIn _ _).bind fun _ _ =>
  (add_faultsIn _ _).bind fun _ _ => (positiveOrZero_faultsIn _).bind fun _ _ =>
  (ratioOrZero_faultsIn _ _).bind fun _ _ => .pure _

theorem addBorrow_faultsIn (s : Stats) (value weighted : Literal) :
    (s.addBorrow value weighted).FaultsIn Fault.OfArithmetic :=
  (add_faultsIn _ _).bind fun _ _ => (positiveOrZero_faultsIn _).bind fun _ _ =>
  (add_faultsIn _ _).bind fun _ _ => (positiveOrZero_faultsIn _).bind fun _ _ => .pure _

theorem refresh_faultsIn (s : Stats) : s.refresh.FaultsIn Fault.OfArithmetic :=
  (sub_faultsIn _ _).bind fun _ _ => (ratioOrZero_faultsIn _ _).bind fun _ _ =>
  (ratioOrZero_faultsIn _ _).bind fun _ _ => (ratioOrZero_faultsIn _ _).bind fun _ _ => .pure _

theorem addDeposit_unsignedOn {terms : CollateralTerms} {value : Literal}
    (h : s.addDeposit terms value = .ok s') :
    s'.UnsignedOn .deposits ∧ (s.UnsignedOn .borrows → s'.UnsignedOn .borrows) := by
  unfold addDeposit at h
  simp only [bind_eq_ok_iff] at h
  obtain ⟨_, -, total, htotal, _, -, _, -, liquidation, hliquidation, _, -, _, -, limit, hlimit,
    ltv, hltv, h⟩ := h
  cases h
  have total := unsigned_positiveOrZero htotal
  have liquidation := unsigned_positiveOrZero hliquidation
  exact ⟨⟨total, unsigned_positiveOrZero hlimit, liquidation,
    unsigned_ratioOrZero liquidation total hltv⟩, id⟩

theorem addBorrow_unsignedOn {value weighted : Literal} (h : s.addBorrow value weighted = .ok s') :
    s'.UnsignedOn .borrows ∧ (s.UnsignedOn .deposits → s'.UnsignedOn .deposits) := by
  unfold addBorrow at h
  simp only [bind_eq_ok_iff] at h
  obtain ⟨_, -, total, htotal, _, -, weighted, hweighted, h⟩ := h
  cases h
  exact ⟨⟨unsigned_positiveOrZero htotal, unsigned_positiveOrZero hweighted⟩, id⟩

/-- A value that is no number is refused when the total is put above zero. -/
theorem addDeposit_isNumber {terms : CollateralTerms} {value : Literal}
    (h : s.addDeposit terms value = .ok s') : ¬ value.IsNaN := by
  unfold addDeposit at h
  simp only [bind_eq_ok_iff] at h
  obtain ⟨sum, added, total, positive, -⟩ := h
  intro none
  cases positive.symm.trans (positiveOrZero_of_isNaN (isNaN_of_add none added))

theorem addBorrow_isNumber {value weighted : Literal} (h : s.addBorrow value weighted = .ok s') :
    ¬ value.IsNaN := by
  unfold addBorrow at h
  simp only [bind_eq_ok_iff] at h
  obtain ⟨sum, added, total, positive, -⟩ := h
  intro none
  cases positive.symm.trans (positiveOrZero_of_isNaN (isNaN_of_add none added))

theorem refresh_unsignedOn (h : s.refresh = .ok s') {side : Side} (unsigned : s.UnsignedOn side) :
    s'.UnsignedOn side := by
  unfold refresh at h
  simp only [bind_eq_ok_iff] at h
  obtain ⟨net, -, ltv, -, leverage, -, utilization, -, h⟩ := h
  cases h
  cases side <;> exact unsigned

end Stats

theorem Position.add_faultsIn (p : Position) (amount value : Literal) :
    (p.add amount value).FaultsIn Fault.OfArithmetic :=
  (Literal.add_faultsIn _ _).bind fun _ _ => (positiveOrZero_faultsIn _).bind fun _ _ =>
  (Literal.add_faultsIn _ _).bind fun _ _ => (positiveOrZero_faultsIn _).bind fun _ _ => .pure _

theorem Position.add_unsigned {p changed : Position} {amount value : Literal}
    (h : p.add amount value = .ok changed) : changed.amount.Unsigned ∧ changed.value.Unsigned := by
  unfold add at h
  simp only [bind_eq_ok_iff] at h
  obtain ⟨_, -, newAmount, hamount, _, -, newValue, hvalue, h⟩ := h
  cases h
  exact ⟨unsigned_positiveOrZero hamount, unsigned_positiveOrZero hvalue⟩

theorem valueOf_faultsIn {m : Market} (opened : m.Opened) {mint : String} {r : Reserve}
    (found : m.reserveOfMint mint = .ok r) (amount : Literal) :
    (valueOf r.toPool amount).FaultsIn Fault.OfArithmetic := by
  obtain ⟨listed, -⟩ := Market.mint_of_reserveOfMint found
  obtain ⟨factor, factor_eq, factor_ne⟩ := Pool.exists_mintFactor_of_openReserve (opened r listed)
  refine (mul_faultsIn _ _).bind fun _ _ => .bind (.of_eq factor_eq) fun own same => ?_
  cases factor_eq.symm.trans same
  exact div_faultsIn _ (mt (Decimal.isZero_iff factor).mp factor_ne)

theorem isNaN_of_valueOf {p : Pool} {amount value : Literal} (none : amount.IsNaN)
    (h : valueOf p amount = .ok value) : value.IsNaN := by
  obtain ⟨price, priced, h⟩ := bind_eq_ok_iff.mp h
  obtain ⟨factor, -, h⟩ := bind_eq_ok_iff.mp h
  exact isNaN_of_div (isNaN_of_mul none priced) h

/-! ## Legs -/

def Leg.signed (leg : Leg) : Outcome Literal :=
  match leg.kind with
  | .deposit | .borrow => pure leg.amount
  | .withdraw | .repay => leg.amount.negated

theorem Leg.signed_faultsIn (leg : Leg) : leg.signed.FaultsIn Fault.OfArithmetic := by
  obtain ⟨kind, amount, mint⟩ := leg
  cases kind
  · exact .pure _
  · exact sub_faultsIn _ _
  · exact .pure _
  · exact sub_faultsIn _ _

theorem Leg.isNaN_of_signed {leg : Leg} {amount : Literal} (none : leg.amount.IsNaN)
    (h : leg.signed = .ok amount) : amount.IsNaN := by
  obtain ⟨kind, own, mint⟩ := leg
  cases kind
  · cases h
    exact none
  · exact isNaN_of_negated none h
  · cases h
    exact none
  · exact isNaN_of_negated none h

def Scenario.positions (s : Scenario) : Side → AddressMap Position
  | .deposits => s.deposits
  | .borrows => s.borrows

section
variable (o : Obligation) (m : Market)

/-- Looking everything up beforehand changes nothing. -/
theorem addDeposit_eq_lookUp (s : Scenario) (x : Literal) (mint : String) :
    addDeposit o m s x mint =
      o.lookUp m mint .deposits >>= fun _ => addDeposit o m s x mint := by
  unfold Obligation.lookUp addDeposit Side.purpose
  cases m.reserveOfMint mint with
  | error fault => rfl
  | ok r =>
    show (m.collateralTerms o.elevationGroup r >>= _) =
      (m.collateralTerms o.elevationGroup r >>= _) >>= fun _ =>
        m.collateralTerms o.elevationGroup r >>= _
    cases m.collateralTerms o.elevationGroup r with
    | error fault => rfl
    | ok terms =>
      show (o.requireGroup r "deposit in" >>= _) =
        o.requireGroup r "deposit in" >>= fun _ => o.requireGroup r "deposit in" >>= _
      cases o.requireGroup r "deposit in" <;> rfl

theorem addBorrow_eq_lookUp (s : Scenario) (x : Literal) (mint : String) :
    addBorrow o m s x mint =
      o.lookUp m mint .borrows >>= fun _ => addBorrow o m s x mint := by
  unfold Obligation.lookUp addBorrow Side.purpose
  cases m.reserveOfMint mint with
  | error fault => rfl
  | ok r =>
    show (o.requireGroup r "borrow from" >>= _) =
      o.requireGroup r "borrow from" >>= fun _ => o.requireGroup r "borrow from" >>= _
    cases o.requireGroup r "borrow from" <;> rfl

/-- An amount put on a side, or taken from it. -/
def addTo (s : Scenario) (amount : Literal) (mint : String) : Side → Outcome Scenario
  | .deposits => addDeposit o m s amount mint
  | .borrows => addBorrow o m s amount mint

theorem addTo_eq_lookUp (s : Scenario) (x : Literal) (mint : String) (side : Side) :
    addTo o m s x mint side = o.lookUp m mint side >>= fun _ => addTo o m s x mint side := by
  cases side
  · exact addDeposit_eq_lookUp o m s x mint
  · exact addBorrow_eq_lookUp o m s x mint

theorem addLeg_eq (s : Scenario) (leg : Leg) :
    addLeg o m s leg = leg.signed >>= fun amount => addTo o m s amount leg.mint leg.kind.side := by
  obtain ⟨kind, amount, mint⟩ := leg
  cases kind <;> rfl

end

section
variable {o : Obligation} {m : Market} {s s' : Scenario} {mint : String} {side : Side}

/-- After everything was looked up, only arithmetic is left to go wrong. -/
theorem addTo_faultsIn (opened : m.Opened) (looked : o.lookUp m mint side = .ok ())
    (s : Scenario) (x : Literal) : (addTo o m s x mint side).FaultsIn Fault.OfArithmetic := by
  cases side with
  | deposits =>
    obtain ⟨r, terms, found, given, required⟩ := Obligation.lookUp_deposits_eq_ok looked
    refine .bind (.of_eq found) fun own same => ?_
    cases found.symm.trans same
    exact .bind (.of_eq given) fun terms _ => .bind (.of_eq required) fun _ _ =>
      (valueOf_faultsIn opened found x).bind fun value _ =>
      (Stats.addDeposit_faultsIn _ _ _).bind fun _ _ =>
      (Position.add_faultsIn _ _ _).bind fun _ _ => .pure _
  | borrows =>
    obtain ⟨r, found, required⟩ := Obligation.lookUp_borrows_eq_ok looked
    refine .bind (.of_eq found) fun own same => ?_
    cases found.symm.trans same
    exact .bind (.of_eq required) fun _ _ =>
      (Reserve.debtWeight_overflowOnly _ _).ofArithmetic.bind fun weight _ =>
      (valueOf_faultsIn opened found x).bind fun value _ => (mul_faultsIn _ _).bind fun _ _ =>
      (Stats.addBorrow_faultsIn _ _ _).bind fun _ _ =>
      (Position.add_faultsIn _ _ _).bind fun _ _ => .pure _

variable {leg : Leg}

theorem addLeg_faultsIn (opened : m.Opened)
    (looked : (o.lookUp m leg.mint leg.kind.side).FaultsIn Fault.OfArithmetic) (s : Scenario) :
    (addLeg o m s leg).FaultsIn Fault.OfArithmetic := by
  rw [addLeg_eq]
  refine leg.signed_faultsIn.bind fun amount _ => ?_
  rw [addTo_eq_lookUp]
  exact looked.bind fun _ admitted => addTo_faultsIn opened admitted s amount

/-- A refused leg fails whatever was done before it. -/
theorem addLeg_of_refused {fault : Fault}
    (refused : o.refusal? m leg.mint leg.kind.side = some fault) (s : Scenario) :
    ∃ g, addLeg o m s leg = .error g ∧ (g.OfArithmetic ∨ g = fault) := by
  obtain ⟨g, looked, why⟩ := Obligation.lookUp_of_refused refused
  rw [addLeg_eq]
  cases signed : leg.signed with
  | error own => exact ⟨own, rfl, .inl (leg.signed_faultsIn own signed)⟩
  | ok amount =>
    refine ⟨g, ?_, why.imp_left .inl⟩
    show addTo o m s amount leg.mint leg.kind.side = _
    rw [addTo_eq_lookUp, looked]
    rfl

end

end Extended

/-- Only an overflow can end a leg of a finite amount that is not refused. -/
theorem Obligation.Grants.addLeg_overflowOnly {o : Obligation} {m : Market} {leg : Leg}
    {r : Reserve} (fit : o.Grants m leg.mint leg.kind.side r) (opened : m.Opened) (s : Scenario) :
    (o.addLeg m s leg).OverflowOnly := by
  intro fault failed
  have ends : Extended.addLeg o m (.ofFinite s) (.ofFinite leg) = .error fault := by
    rw [Extended.addLeg_ofFinite, failed]
    rfl
  have looked := fit.lookUp_overflowOnly.ofArithmetic
  rcases Extended.addLeg_faultsIn opened looked (.ofFinite s) fault ends with overflow | invalid
  · exact overflow
  · exact absurd invalid (o.addLeg_valid opened s leg fault failed)

namespace Extended

/-! ## What is written -/

/-- All that putting an amount on a side does. -/
structure SideStep (m : Market) (s s' : Scenario) (amount : Literal) (mint : String) (side : Side)
    (r : Reserve) (changed : Position) : Prop where
  number : ¬ amount.IsNaN
  reserve_eq : m.reserveOfMint mint = .ok r
  entered : s'.positions side =
    (s.positions side).insert (Position.ofMint (s.positions side) r mint).reserve changed
  position : changed.amount.Unsigned ∧ changed.value.Unsigned
  totals : s'.stats.UnsignedOn side
  others : ∀ other, side ≠ other → s'.positions other = s.positions other ∧
    (s.stats.UnsignedOn other → s'.stats.UnsignedOn other)

/-- What a leg wrote, as it is later: no total of its side is negative, nor is the position that
    it changed. -/
structure Written (m : Market) (before later : Scenario) (leg : Leg) : Prop where
  totals : later.stats.UnsignedOn leg.kind.side
  position : ∃ r p, m.reserveOfMint leg.mint = .ok r ∧
    (later.positions leg.kind.side).find?
      (Position.ofMint (before.positions leg.kind.side) r leg.mint).reserve = some p ∧
    p.amount.Unsigned ∧ p.value.Unsigned

section
variable {o : Obligation} {m : Market} {s next later : Scenario} {leg other : Leg}

theorem addTo_step {amount : Literal} {mint : String} {side : Side}
    (h : addTo o m s amount mint side = .ok next) :
    ∃ r changed, SideStep m s next amount mint side r changed := by
  cases side with
  | deposits =>
    change addDeposit o m s amount mint = _ at h
    unfold addDeposit at h
    simp only [bind_eq_ok_iff] at h
    obtain ⟨r, found, terms, -, _, -, value, valued, stats, totals, changed, position, h⟩ := h
    cases h
    obtain ⟨own, others⟩ := Stats.addDeposit_unsignedOn totals
    refine ⟨r, changed, fun none => ?_, found, rfl, Position.add_unsigned position, own, ?_⟩
    · exact Stats.addDeposit_isNumber totals (isNaN_of_valueOf none valued)
    · rintro (_ | _) apart
      · exact absurd rfl apart
      · exact ⟨rfl, others⟩
  | borrows =>
    change addBorrow o m s amount mint = _ at h
    unfold addBorrow at h
    simp only [bind_eq_ok_iff] at h
    obtain ⟨r, found, _, -, weight, -, value, valued, share, -, stats, totals, changed, position,
      h⟩ := h
    cases h
    obtain ⟨own, others⟩ := Stats.addBorrow_unsignedOn totals
    refine ⟨r, changed, fun none => ?_, found, rfl, Position.add_unsigned position, own, ?_⟩
    · exact Stats.addBorrow_isNumber totals (isNaN_of_valueOf none valued)
    · rintro (_ | _) apart
      · exact ⟨rfl, others⟩
      · exact absurd rfl apart

theorem addLeg_step (h : addLeg o m s leg = .ok next) : ∃ amount r changed,
    leg.signed = .ok amount ∧ SideStep m s next amount leg.mint leg.kind.side r changed := by
  rw [addLeg_eq] at h
  obtain ⟨amount, signed, h⟩ := bind_eq_ok_iff.mp h
  obtain ⟨r, changed, step⟩ := addTo_step h
  exact ⟨amount, r, changed, signed, step⟩

theorem addLeg_of_isNaN (none : leg.amount.IsNaN) : addLeg o m s leg ≠ .ok next := by
  intro h
  obtain ⟨amount, r, changed, signed, step⟩ := addLeg_step h
  exact step.number (leg.isNaN_of_signed none signed)

theorem written_of_addLeg (h : addLeg o m s leg = .ok next) : Written m s next leg := by
  obtain ⟨amount, r, changed, -, step⟩ := addLeg_step h
  refine ⟨step.totals, r, changed, step.reserve_eq, ?_, step.position⟩
  rw [step.entered, AddressMap.find?_insert, if_pos rfl]

theorem Written.after (written : Written m s next leg) (h : addLeg o m next other = .ok later)
    (apart : leg.kind.side ≠ other.kind.side) : Written m s later leg := by
  obtain ⟨amount, r, changed, -, step⟩ := addLeg_step h
  obtain ⟨same, totals⟩ := step.others _ apart.symm
  refine ⟨totals written.totals, ?_⟩
  rw [same]
  exact written.position

theorem Written.before (written : Written m next later leg) (h : addLeg o m s other = .ok next)
    (apart : other.kind.side ≠ leg.kind.side) : Written m s later leg := by
  obtain ⟨amount, r, changed, -, step⟩ := addLeg_step h
  refine ⟨written.totals, ?_⟩
  rw [← (step.others _ apart).1]
  exact written.position

theorem addLegs_cons (o : Obligation) (m : Market) (s : Scenario) (leg : Leg) (rest : List Leg) :
    addLegs o m s (leg :: rest) = addLeg o m s leg >>= fun next => addLegs o m next rest :=
  List.foldlM_cons

theorem Written.afterAll {rest : List Leg} (written : Written m s next leg)
    (apart : ∀ other ∈ rest, leg.kind.side ≠ other.kind.side)
    (run : addLegs o m next rest = .ok later) : Written m s later leg := by
  induction rest generalizing next with
  | nil =>
    cases run
    exact written
  | cons first rest ih =>
    rw [addLegs_cons] at run
    obtain ⟨after, step, run⟩ := bind_eq_ok_iff.mp run
    obtain ⟨own, others⟩ := List.forall_mem_cons.mp apart
    exact ih (written.after step own) others run

/-- Legs that are each on a side of its own do not overwrite what the others wrote. -/
theorem written_of_addLegs {legs : List Leg}
    (apart : legs.Pairwise fun leg other => leg.kind.side ≠ other.kind.side)
    (run : addLegs o m s legs = .ok later) : ∀ leg ∈ legs, Written m s later leg := by
  induction legs generalizing s with
  | nil => exact List.forall_mem_nil _
  | cons first rest ih =>
    rw [addLegs_cons] at run
    obtain ⟨next, step, run⟩ := bind_eq_ok_iff.mp run
    obtain ⟨own, others⟩ := List.pairwise_cons.mp apart
    refine List.forall_mem_cons.mpr ⟨(written_of_addLeg step).afterAll own run, ?_⟩
    exact fun leg listed => (ih others run leg listed).before step (own leg listed)

theorem Written.refresh {stats : Stats} (written : Written m s next leg)
    (h : next.stats.refresh = .ok stats) : Written m s { next with stats } leg := by
  obtain ⟨totals, position⟩ := written
  refine ⟨Stats.refresh_unsignedOn h totals, ?_⟩
  cases side : leg.kind.side <;> rw [side] at position <;> exact position

end

end Extended

end Lending
