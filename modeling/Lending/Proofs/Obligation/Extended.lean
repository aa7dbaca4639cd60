/-
  Lending.Proofs.Obligation.Extended — finite actions among those of any amount.

  An operation on finite values is the operation of `money`, and gives a finite value. So are the
  figures of a leg (`addLeg_ofFinite`) and what an action makes of an obligation
  (`simulate_ofFinite`); no fault is added and none is lost.
-/
import Lending.Obligation.Extended
import Lending.Proofs.AddressMap
import Lending.Proofs.Outcome

namespace Lending

open Outcome

/-! ## Operations -/

namespace Literal

variable (x y : Decimal)

theorem finite_add : (finite x + finite y : Outcome Literal) = finite <$> (x + y) := rfl

theorem finite_sub : (finite x - finite y : Outcome Literal) = finite <$> (x - y) := rfl

theorem finite_mul : (finite x * finite y : Outcome Literal) = finite <$> (x * y) := rfl

theorem finite_div : (finite x / finite y : Outcome Literal) = finite <$> (x / y) := rfl

theorem finite_negated : (finite x).negated = finite <$> x.negated := rfl

theorem finite_positiveOrZero :
    (finite x).positiveOrZero = pure (finite x.positiveOrZero) := rfl

theorem finite_ratioOrZero :
    ratioOrZero (finite x) (finite y) = finite <$> Decimal.ratioOrZero x y := by
  show (if y.isZero then pure (finite 0) else finite x / finite y) =
    finite <$> if y.isZero then pure 0 else x / y
  split <;> rfl

end Literal

namespace Extended

open Literal

theorem valueOf_finite (p : Pool) (x : Decimal) :
    valueOf p (finite x) = finite <$> p.valueOf x := by
  unfold valueOf Pool.valueOf
  simp only [finite_mul, finite_div, map_bind, bind_map_left]

/-! ## Figures -/

namespace Stats

variable (s : ObligationStats)

theorem addDeposit_ofFinite (terms : CollateralTerms) (value : Decimal) :
    (ofFinite s).addDeposit terms (finite value) = ofFinite <$> s.addDeposit terms value := by
  unfold addDeposit ObligationStats.addDeposit ofFinite
  simp only [finite_add, finite_mul, finite_positiveOrZero, finite_ratioOrZero, map_bind,
    bind_map_left, pure_bind, map_pure]

theorem addBorrow_ofFinite (value weighted : Decimal) :
    (ofFinite s).addBorrow (finite value) (finite weighted) =
      ofFinite <$> s.addBorrow value weighted := by
  unfold addBorrow ObligationStats.addBorrow ofFinite
  simp only [finite_add, finite_positiveOrZero, map_bind, bind_map_left, pure_bind, map_pure]

theorem refresh_ofFinite : (ofFinite s).refresh = ofFinite <$> s.refresh := by
  unfold refresh ObligationStats.refresh ofFinite
  simp only [finite_sub, finite_ratioOrZero, map_bind, bind_map_left, map_pure]

end Stats

namespace Position

theorem add_ofFinite (p : Lending.Position) (amount value : Decimal) :
    (ofFinite p).add (finite amount) (finite value) = ofFinite <$> p.add amount value := by
  unfold add Lending.Position.add ofFinite
  simp only [finite_add, finite_positiveOrZero, map_bind, bind_map_left, pure_bind, map_pure]

theorem ofMint_ofFinite (positions : AddressMap Lending.Position) (r : Reserve) (mint : String) :
    ofMint (positions.map ofFinite) r mint = ofFinite (Lending.Position.ofMint positions r mint) := by
  unfold ofMint Lending.Position.ofMint
  rw [AddressMap.values_map, ← List.map_reverse, List.find?_map]
  exact Option.getD_map ofFinite ⟨r.address, mint, 0, 0⟩ _

end Position

/-! ## Legs -/

def Leg.ofFinite (leg : Lending.Leg) : Leg := ⟨leg.kind, .finite leg.amount, leg.mint⟩

variable (o : Obligation) (m : Market)

theorem addDeposit_ofFinite (s : Lending.Scenario) (x : Decimal) (mint : String) :
    addDeposit o m (.ofFinite s) (finite x) mint =
      Scenario.ofFinite <$> o.addDeposit m s x mint := by
  unfold addDeposit Obligation.addDeposit
  simp only [Scenario.ofFinite, Position.ofMint_ofFinite, valueOf_finite,
    Stats.addDeposit_ofFinite, Position.add_ofFinite, AddressMap.map_insert, map_bind,
    bind_map_left, map_pure]
  rfl

theorem addBorrow_ofFinite (s : Lending.Scenario) (x : Decimal) (mint : String) :
    addBorrow o m (.ofFinite s) (finite x) mint =
      Scenario.ofFinite <$> o.addBorrow m s x mint := by
  unfold addBorrow Obligation.addBorrow
  simp only [Scenario.ofFinite, Position.ofMint_ofFinite, valueOf_finite, finite_mul,
    Stats.addBorrow_ofFinite, Position.add_ofFinite, AddressMap.map_insert, map_bind,
    bind_map_left, map_pure]
  rfl

theorem addLeg_ofFinite (s : Lending.Scenario) (leg : Lending.Leg) :
    addLeg o m (.ofFinite s) (.ofFinite leg) = Scenario.ofFinite <$> o.addLeg m s leg := by
  obtain ⟨kind, x, mint⟩ := leg
  cases kind
  · exact addDeposit_ofFinite o m s x mint
  · show (finite x).negated >>= _ = _ <$> (x.negated >>= _)
    simp only [finite_negated, map_bind, bind_map_left, addDeposit_ofFinite]
    rfl
  · exact addBorrow_ofFinite o m s x mint
  · show (finite x).negated >>= _ = _ <$> (x.negated >>= _)
    simp only [finite_negated, map_bind, bind_map_left, addBorrow_ofFinite]
    rfl

theorem addLegs_ofFinite (s : Lending.Scenario) (legs : List Lending.Leg) :
    addLegs o m (.ofFinite s) (legs.map .ofFinite) = Scenario.ofFinite <$> o.addLegs m s legs := by
  induction legs generalizing s with
  | nil => rfl
  | cons leg rest ih =>
    unfold addLegs Obligation.addLegs at ih ⊢
    rw [List.map_cons, List.foldlM_cons, List.foldlM_cons, addLeg_ofFinite, bind_map_left,
      map_bind]
    simp only [ih]

/-! ## Actions -/

def Request.ofFinite (q : ObligationRequest) : Request where
  amount := .finite q.amount
  action := q.action
  mint := q.mint
  outflow := q.outflow.map .finite
  outflowMint := q.outflowMint

theorem Request.legs_ofFinite (q : ObligationRequest) (action : Action) :
    (ofFinite q).legs action = (·.map Leg.ofFinite) <$> q.legs action := by
  have second : (q.outflow.map finite).getD (finite q.amount) = finite (q.outflow.getD q.amount) :=
    Option.getD_map finite _ _
  unfold legs ObligationRequest.legs ofFinite
  cases action <;> simp only [second] <;> rfl

/-- An action of finite amounts ends as it does with finite figures throughout. -/
theorem simulate_ofFinite (q : ObligationRequest) :
    simulate o m (.ofFinite q) = Scenario.ofFinite <$> o.simulate m q := by
  unfold simulate Obligation.simulate
  simp only [Request.legs_ofFinite, map_bind, bind_map_left, addLegs_ofFinite, map_pure]
  congr 1
  funext action
  congr 1
  funext legs
  congr 1
  funext final
  show (Stats.ofFinite final.stats).refresh >>= _ = _
  rw [Stats.refresh_ofFinite, bind_map_left]
  rfl

end Extended

end Lending
