/-
  Lending.Proofs.Obligation.Simulable — when an action can be simulated, and how it fails.

  Tags that name no action and actions that an obligation has no part in are turned away first.
  Of the legs of any other action the first that is refused decides how it ends
  (`addLegs_of_refused`); an action with no such leg can be simulated, and what its legs write is
  not negative. Two faults may come before: an overflow, and an operation without a result. The
  latter only happens to amounts that are infinite or no number (`simulate_ends`), and with an
  amount that is no number nothing is ever simulated (`simulate_of_isNaN`).
-/
import Lending.Proofs.Obligation.ExtendedLegs

namespace Lending

open Outcome Literal

namespace Extended

/-! ## Runs -/

def Leg.refusal? (o : Obligation) (m : Market) (leg : Leg) : Option Fault :=
  o.refusal? m leg.mint leg.kind.side

section
variable {o : Obligation} {m : Market} {legs : List Leg}

theorem addLeg_of_granted (opened : m.Opened) {leg : Leg} (granted : leg.refusal? o m = none)
    (s : Scenario) : (addLeg o m s leg).FaultsIn Fault.OfArithmetic := by
  obtain ⟨r, fit⟩ := Obligation.grants_of_not_refused granted
  exact addLeg_faultsIn opened fit.lookUp_overflowOnly.ofArithmetic s

theorem addLegs_of_refused (opened : m.Opened) {fault : Fault}
    (first : legs.findSome? (Leg.refusal? o m) = some fault) (s : Scenario) :
    ∃ g, addLegs o m s legs = .error g ∧ (g.OfArithmetic ∨ g = fault) :=
  foldlM_first_error (fun s _ _ refused => addLeg_of_refused refused s)
    (fun s _ granted => addLeg_of_granted opened granted s) first s

theorem addLegs_of_granted (opened : m.Opened) (granted : ∀ leg ∈ legs, leg.refusal? o m = none)
    (s : Scenario) : (addLegs o m s legs).FaultsIn Fault.OfArithmetic :=
  foldlM_faultsIn (fun leg listed => addLeg_of_granted opened (granted leg listed)) s

theorem Leg.exists_ofFinite {leg : Leg} (finite : leg.amount.IsFinite) :
    ∃ own, Leg.ofFinite own = leg := by
  obtain ⟨kind, amount | _ | _ | _, mint⟩ := leg
  · exact ⟨⟨kind, amount, mint⟩, rfl⟩
  · exact finite.elim
  · exact finite.elim
  · exact finite.elim

theorem exists_ofFinite_of_legs (finite : ∀ leg ∈ legs, leg.amount.IsFinite) :
    ∃ own : List Lending.Leg, own.map .ofFinite = legs := by
  have known : legs ∈ Set.range (List.map Leg.ofFinite) := by
    rw [Set.range_list_map]
    exact fun leg listed => Leg.exists_ofFinite (finite leg listed)
  exact known

/-- No leg of a finite amount is invalid. -/
theorem addLegs_valid (opened : m.Opened) (finite : ∀ leg ∈ legs, leg.amount.IsFinite)
    (s : Lending.Scenario) :
    (addLegs o m (.ofFinite s) legs).FaultsIn (· ≠ .invalidOperation) := by
  obtain ⟨own, rfl⟩ := exists_ofFinite_of_legs finite
  rw [addLegs_ofFinite]
  exact (foldlM_faultsIn (fun leg _ s => o.addLeg_valid opened s leg) s).map _

theorem addLegs_of_isNaN {s final : Scenario} {leg : Leg} (member : leg ∈ legs)
    (none : leg.amount.IsNaN) : addLegs o m s legs ≠ .ok final := by
  intro run
  induction legs generalizing s with
  | nil => cases member
  | cons first rest ih =>
    rw [addLegs_cons] at run
    obtain ⟨next, step, run⟩ := bind_eq_ok_iff.mp run
    rcases List.mem_cons.mp member with rfl | later
    · exact addLeg_of_isNaN none step
    · exact ih later run

def perform (o : Obligation) (m : Market) (legs : List Leg) : Outcome Scenario := do
  let final ← addLegs o m (.ofFinite o.scenario) legs
  let stats ← final.stats.refresh
  pure { final with stats }

theorem perform_of_granted (opened : m.Opened) (granted : ∀ leg ∈ legs, leg.refusal? o m = none) :
    (perform o m legs).FaultsIn Fault.OfArithmetic :=
  (addLegs_of_granted opened granted _).bind fun final _ =>
    final.stats.refresh_faultsIn.bind fun _ _ => .pure _

theorem perform_valid (opened : m.Opened) (finite : ∀ leg ∈ legs, leg.amount.IsFinite) :
    (perform o m legs).FaultsIn (· ≠ .invalidOperation) := by
  refine (addLegs_valid opened finite _).bind fun final run => ?_
  obtain ⟨own, rfl⟩ := exists_ofFinite_of_legs finite
  rw [addLegs_ofFinite, map_eq_ok_iff] at run
  obtain ⟨last, -, rfl⟩ := run
  show ((Stats.ofFinite last.stats).refresh >>= _).FaultsIn _
  rw [Stats.refresh_ofFinite]
  exact ((ObligationStats.refresh_overflowOnly _).valid.map _).bind fun _ _ => .pure _

theorem written_of_perform {later : Scenario}
    (apart : legs.Pairwise fun leg other => leg.kind.side ≠ other.kind.side)
    (h : perform o m legs = .ok later) :
    ∀ leg ∈ legs, Written m (.ofFinite o.scenario) later leg := by
  obtain ⟨final, run, h⟩ := bind_eq_ok_iff.mp h
  obtain ⟨stats, refreshed, h⟩ := bind_eq_ok_iff.mp h
  cases h
  exact fun leg listed => (written_of_addLegs apart run leg listed).refresh refreshed

end

/-! ## Actions -/

theorem Request.legs_apart {q : Request} {action : Action} {legs : List Leg}
    (h : q.legs action = .ok legs) :
    legs.Pairwise fun leg other => leg.kind.side ≠ other.kind.side := by
  cases action <;> cases h <;> simp [LegKind.side]

/-- Every action has legs, or no part in obligations. -/
theorem Request.legs_cases (q : Request) (action : Action) :
    (∃ legs, q.legs action = .ok legs ∧ action ≠ .mint ∧ action ≠ .redeem) ∨
      (action = .mint ∨ action = .redeem) ∧ q.legs action = .error (.notSimulated action) := by
  cases action
  case mint => exact .inr ⟨.inl rfl, rfl⟩
  case redeem => exact .inr ⟨.inr rfl, rfl⟩
  all_goals exact .inl ⟨_, rfl, nofun, nofun⟩

end Extended

/-- An action is turned away as such, whatever the obligation and the market. -/
def Fault.TurnsAway : Fault → Prop
  | .unknownAction _ | .notSimulated _ => True
  | _ => False

theorem ActionTag.fault_of_resolve {tag : ActionTag} {fault : Fault}
    (h : tag.resolve = .error fault) : fault = .unknownAction tag := by
  unfold resolve at h
  split at h
  · rename_i s
    cases named : Action.ofText? s with
    | none =>
      rw [named] at h
      cases h
      rfl
    | some action =>
      rw [named] at h
      cases h
  · cases h
    rfl

namespace Extended

/-- How simulating an action ends. An amount that is infinite or no number may leave it without
    a result, once its leg is tried. -/
structure SimulationEnds (o : Obligation) (m : Market) (q : Request) : Prop where
  unknown : ∀ fault, q.action.resolve = .error fault →
    simulate o m q = .error (.unknownAction q.action)
  notSimulated : ∀ action, q.action.resolve = .ok action → action = .mint ∨ action = .redeem →
    simulate o m q = .error (.notSimulated action)
  refused : ∀ action before leg after fault, q.action.resolve = .ok action →
    q.legs action = .ok (before ++ leg :: after) →
    (∀ other ∈ before, other.refusal? o m = none) → leg.refusal? o m = some fault →
    simulate o m q = .error fault ∨
      simulate o m q = .error .invalidOperation ∧ ∃ tried ∈ before ++ [leg], ¬ tried.amount.IsFinite
  done : ∀ action legs, q.action.resolve = .ok action → q.legs action = .ok legs →
    (∀ leg ∈ legs, leg.refusal? o m = none) →
    (∃ s, simulate o m q = .ok s ∧ ∀ leg ∈ legs, Written m (.ofFinite o.scenario) s leg) ∨
      simulate o m q = .error .invalidOperation ∧ ∃ leg ∈ legs, ¬ leg.amount.IsFinite
  turnedAway_iff : (∃ fault, simulate o m q = .error fault ∧ fault.TurnsAway) ↔
    ∀ action, q.action.resolve = .ok action → action = .mint ∨ action = .redeem
  invalid : simulate o m q = .error .invalidOperation → ∃ action legs,
    q.action.resolve = .ok action ∧ q.legs action = .ok legs ∧ ∃ leg ∈ legs, ¬ leg.amount.IsFinite
  /-- No ratio meets a zero to divide by, and nothing is looked up that is not there. -/
  unreachable : ∀ fault, simulate o m q = .error fault →
    fault ≠ .divisionByZero ∧ ∀ reserve, fault ≠ .rateMissing reserve

section
variable {o : Obligation} {m : Market} {q : Request}

theorem simulate_of_unknown {fault : Fault} (unknown : q.action.resolve = .error fault) :
    simulate o m q = .error (.unknownAction q.action) := by
  cases ActionTag.fault_of_resolve unknown
  unfold simulate
  rw [unknown]
  rfl

/-- Mints and redemptions have no part in an obligation. -/
theorem simulate_of_noPart {action : Action} (resolved : q.action.resolve = .ok action)
    (part : action = .mint ∨ action = .redeem) :
    simulate o m q = .error (.notSimulated action) := by
  rcases q.legs_cases action with ⟨-, -, mint, redeem⟩ | ⟨-, none⟩
  · exact absurd part (not_or.mpr ⟨mint, redeem⟩)
  · unfold simulate
    rw [resolved]
    show (q.legs action >>= fun legs => _) = _
    rw [none]
    rfl

theorem simulate_eq_perform {action : Action} {legs : List Leg}
    (resolved : q.action.resolve = .ok action) (listed : q.legs action = .ok legs) :
    simulate o m q = perform o m legs := by
  unfold simulate perform
  rw [resolved]
  show (q.legs action >>= fun legs => _) = _
  rw [listed]
  rfl

/-- An action with an amount that is no number is never simulated. -/
theorem simulate_of_isNaN {action : Action} {legs : List Leg}
    (resolved : q.action.resolve = .ok action) (listed : q.legs action = .ok legs) {leg : Leg}
    (member : leg ∈ legs) (none : leg.amount.IsNaN) (later : Scenario) :
    simulate o m q ≠ .ok later := by
  rw [simulate_eq_perform resolved listed]
  intro h
  obtain ⟨final, run, -⟩ := bind_eq_ok_iff.mp h
  exact addLegs_of_isNaN member none run

variable (opened : m.Opened) (fits : simulate o m q ≠ .error .overflow) {action : Action}
  (resolved : q.action.resolve = .ok action)
include opened fits resolved

/-- The legs after a refused one are not tried. -/
theorem simulate_of_refused {before after : List Leg} {leg : Leg} {fault : Fault}
    (listed : q.legs action = .ok (before ++ leg :: after))
    (granted : ∀ other ∈ before, other.refusal? o m = none)
    (refused : leg.refusal? o m = some fault) :
    simulate o m q = .error fault ∨
      simulate o m q = .error .invalidOperation ∧
        ∃ tried ∈ before ++ [leg], ¬ tried.amount.IsFinite := by
  have first : (before ++ [leg]).findSome? (Leg.refusal? o m) = some fault := by
    rw [List.findSome?_append, List.findSome?_eq_none_iff.mpr granted]
    simpa using refused
  obtain ⟨g, failed, why⟩ := addLegs_of_refused opened first (.ofFinite o.scenario)
  have ends : simulate o m q = .error g := by
    rw [simulate_eq_perform resolved listed, List.append_cons]
    unfold perform addLegs
    unfold addLegs at failed
    rw [List.foldlM_append, failed]
    rfl
  rcases why with (rfl | rfl) | rfl
  · exact absurd ends fits
  · refine .inr ⟨ends, ?_⟩
    by_contra none
    have finite : ∀ tried ∈ before ++ [leg], tried.amount.IsFinite := by
      simpa only [not_exists, not_and, not_not] using none
    exact addLegs_valid opened finite o.scenario _ failed rfl
  · exact .inl ends

theorem simulate_of_granted {legs : List Leg} (listed : q.legs action = .ok legs)
    (granted : ∀ leg ∈ legs, leg.refusal? o m = none) :
    (∃ s, simulate o m q = .ok s ∧ ∀ leg ∈ legs, Written m (.ofFinite o.scenario) s leg) ∨
      simulate o m q = .error .invalidOperation ∧ ∃ leg ∈ legs, ¬ leg.amount.IsFinite := by
  rw [simulate_eq_perform resolved listed] at fits ⊢
  cases ends : perform o m legs with
  | error fault =>
    rcases perform_of_granted opened granted fault ends with rfl | rfl
    · exact absurd ends fits
    · refine .inr ⟨rfl, ?_⟩
      by_contra none
      have finite : ∀ leg ∈ legs, leg.amount.IsFinite := by
        simpa only [not_exists, not_and, not_not] using none
      exact perform_valid opened finite _ ends rfl
  | ok s => exact .inl ⟨s, rfl, written_of_perform (q.legs_apart listed) ends⟩

/-- An action that has legs fails for the reason of one of them, or for an amount that is not
    finite. -/
theorem fault_of_legs {legs : List Leg} (listed : q.legs action = .ok legs) {fault : Fault}
    (failed : simulate o m q = .error fault) :
    (∃ leg : Leg, leg.refusal? o m = some fault) ∨
      fault = .invalidOperation ∧ ∃ leg ∈ legs, ¬ leg.amount.IsFinite := by
  cases first : legs.findSome? (Leg.refusal? o m) with
  | none =>
    have granted := List.findSome?_eq_none_iff.mp first
    rcases simulate_of_granted opened fits resolved listed granted with ⟨s, done, -⟩ | ⟨ends, why⟩
    · cases failed.symm.trans done
    · cases failed.symm.trans ends
      exact .inr ⟨rfl, why⟩
  | some own =>
    obtain ⟨before, leg, after, rfl, refused, granted⟩ := List.findSome?_eq_some_iff.mp first
    rcases simulate_of_refused opened fits resolved listed granted refused with ends | ⟨ends, why⟩
    · cases failed.symm.trans ends
      exact .inl ⟨leg, refused⟩
    · cases failed.symm.trans ends
      obtain ⟨tried, member, infinite⟩ := why
      refine .inr ⟨rfl, tried, ?_, infinite⟩
      rw [List.append_cons]
      exact List.mem_append_left _ member

omit resolved in
/-- How an action fails. -/
theorem fault_cases {fault : Fault} (failed : simulate o m q = .error fault) :
    (fault.TurnsAway ∧
      ∀ action, q.action.resolve = .ok action → action = .mint ∨ action = .redeem) ∨
    (∃ leg : Leg, leg.refusal? o m = some fault) ∨
    fault = .invalidOperation ∧ ∃ action legs, q.action.resolve = .ok action ∧
      q.legs action = .ok legs ∧ ∃ leg ∈ legs, ¬ leg.amount.IsFinite := by
  cases resolved : q.action.resolve with
  | error own =>
    cases failed.symm.trans (simulate_of_unknown resolved)
    exact .inl ⟨trivial, nofun⟩
  | ok action =>
    rcases q.legs_cases action with ⟨legs, listed, -⟩ | ⟨part, -⟩
    · refine .inr ((fault_of_legs opened fits resolved listed failed).imp_right ?_)
      exact fun ⟨invalid, why⟩ => ⟨invalid, action, legs, rfl, listed, why⟩
    · cases failed.symm.trans (simulate_of_noPart resolved part)
      refine .inl ⟨trivial, ?_⟩
      rintro _ ⟨⟩
      exact part

end

/-- Short of an overflow, the tag decides whether an action is looked at, and the first leg that
    is refused how it fails. If none is, the action is simulated. Only an amount that is not
    finite can get in the way. -/
theorem simulate_ends {o : Obligation} {m : Market} (opened : m.Opened) {q : Request}
    (fits : simulate o m q ≠ .error .overflow) : SimulationEnds o m q where
  unknown _ := simulate_of_unknown
  notSimulated _ := simulate_of_noPart
  refused _ _ _ _ _ resolved listed := simulate_of_refused opened fits resolved listed
  done _ _ resolved listed := simulate_of_granted opened fits resolved listed
  turnedAway_iff := by
    constructor
    · rintro ⟨fault, failed, away⟩
      rcases fault_cases opened fits failed with ⟨-, noPart⟩ | ⟨leg, refused⟩ | ⟨rfl, -⟩
      · exact noPart
      · rcases Obligation.refusal?_kinds refused with rfl | rfl | rfl <;> cases away
      · cases away
    · intro noPart
      cases resolved : q.action.resolve with
      | error fault => exact ⟨_, simulate_of_unknown resolved, trivial⟩
      | ok action => exact ⟨_, simulate_of_noPart resolved (noPart action resolved), trivial⟩
  invalid := by
    intro failed
    rcases fault_cases opened fits failed with ⟨away, -⟩ | ⟨leg, refused⟩ | ⟨-, why⟩
    · cases away
    · rcases Obligation.refusal?_kinds refused with h | h | h <;> cases h
    · exact why
  unreachable := by
    intro fault failed
    rcases fault_cases opened fits failed with ⟨away, -⟩ | ⟨leg, refused⟩ | ⟨rfl, -⟩
    · refine ⟨?_, fun reserve => ?_⟩ <;> rintro rfl <;> exact away
    · rcases Obligation.refusal?_kinds refused with rfl | rfl | rfl <;> exact ⟨nofun, nofun⟩
    · exact ⟨nofun, nofun⟩

end Extended

namespace Sample

def payAndTake : ObligationRequest :=
  { request "repayAndWithdraw" ⟨false, 1, 3⟩ "token" with outflowMint := some "coin" }

def deposit (amount : Literal) : Extended.Request where
  amount := amount
  action := .text "deposit"
  mint := "token"

end Sample

namespace Extended

/-- The first leg can be done, the second one decides. To pay back far more than is owed is an
    action that can be simulated. -/
theorem simulate_ends_sample :
    simulate Sample.member Sample.groupMarket (.ofFinite Sample.payAndTake) =
      .error (.groupDowngrade "deposit in") ∧
    ∃ s, simulate Sample.member Sample.groupMarket
        (.ofFinite (Sample.request "repay" ⟨false, 1, 12⟩ "token")) = .ok s ∧
      Written Sample.groupMarket (.ofFinite Sample.member.scenario) s
        ⟨.repay, .finite ⟨false, 1, 12⟩, "token"⟩ := by
  have opened : Sample.groupMarket.Opened := by decide +kernel
  constructor
  · have ends := simulate_ends opened (show simulate Sample.member Sample.groupMarket
      (.ofFinite Sample.payAndTake) ≠ .error .overflow by decide +kernel)
    rcases ends.refused .repayAndWithdraw [⟨.repay, .finite ⟨false, 1, 3⟩, "token"⟩]
      ⟨.withdraw, .finite ⟨false, 1, 3⟩, "coin"⟩ [] (.groupDowngrade "deposit in")
      (by decide +kernel) (by decide +kernel) (by decide +kernel) (by decide +kernel) with
      refused | ⟨-, infinite⟩
    · exact refused
    · simp [Literal.IsFinite] at infinite
  · have ends := simulate_ends opened (show simulate Sample.member Sample.groupMarket
      (.ofFinite (Sample.request "repay" ⟨false, 1, 12⟩ "token")) ≠ .error .overflow by
        decide +kernel)
    rcases ends.done .repay [⟨.repay, .finite ⟨false, 1, 12⟩, "token"⟩] (by decide +kernel)
      (by decide +kernel) (by decide +kernel) with ⟨s, done, written⟩ | ⟨-, infinite⟩
    · exact ⟨s, done, written _ List.mem_cons_self⟩
    · simp [Literal.IsFinite] at infinite

/-- A deposit that is no number makes the total one, which cannot be compared with zero. An
    infinite one leaves the liquidation limit and the total without a ratio. -/
theorem special_deposits_invalid :
    Sample.market.Opened ∧
    (∀ amount, Leg.refusal? Sample.obligation Sample.market ⟨.deposit, amount, "token"⟩ = none) ∧
    simulate Sample.obligation Sample.market (Sample.deposit .notANumber) =
      .error .invalidOperation ∧
    simulate Sample.obligation Sample.market (Sample.deposit (.infinite false)) =
      .error .invalidOperation := by
  refine ⟨by decide +kernel, fun _ => ?_, by decide +kernel, by decide +kernel⟩
  show Sample.obligation.refusal? Sample.market "token" .deposits = none
  decide +kernel

end Extended

end Lending
