/-
  Lending.Proofs.Reserve.Response — how the simulated rates answer to the size of an action.

  Every action lends out an amount and supplies another, either of which may be nothing or be
  negative (`ReserveRequest.lent`, `ReserveRequest.supplied`). If one request lends no less and
  supplies no more than another, the utilization after it is no lower, and on a curve that does
  not fall neither is the borrow rate (`Reserve.rises_of_flows`). All that is asked beside that
  is a supply to divide by, and a debt that is not negative where the supply differs. So the
  rates follow the size of each action in one direction (`Reserve.rates_respond`).

  What leaves the pool must leave some of the supply in it (`DebtAndSupply.Leaves`). An amount
  below the supply by less than the finest grid shows does not: the difference is cut to zero,
  and a pool without supply is not used at all (`Pool.utilization_of_underflow`).
-/
import Lending.Proofs.Decimal.Normal
import Lending.Proofs.RateCurve
import Lending.Proofs.Reserve.AsOf
import Lending.Reserve.Sample
import Lending.Reserve.Simulation

namespace Lending

open Outcome Truncation

/-! ## Flows -/

namespace ReserveRequest

def second (q : ReserveRequest) : ℚ := (q.outflow.map Decimal.toRat).getD 0

def lent (q : ReserveRequest) : Action → ℚ
  | .deposit | .mint | .withdraw | .redeem => 0
  | .borrow => q.amount.toRat
  | .repay | .repayAndWithdraw => -q.amount.toRat
  | .depositAndBorrow => q.second

def supplied (q : ReserveRequest) : Action → ℚ
  | .deposit | .mint | .depositAndBorrow => q.amount.toRat
  | .withdraw | .redeem => -q.amount.toRat
  | .borrow | .repay => 0
  | .repayAndWithdraw => -q.second

end ReserveRequest

structure DebtAndSupply.Exact (e : DebtAndSupply) : Prop where
  debt : Representable e.debt.toRat
  supply : Representable e.supply.toRat

theorem Pool.exact_debtAndSupplyAt {p : Pool} {slot bps : ℤ} {e : DebtAndSupply}
    (h : p.debtAndSupplyAt slot bps = .ok e) : e.Exact :=
  ⟨(debtAndSupplyAt_results h).1.exact, (debtAndSupplyAt_results h).2.exact⟩

theorem DebtAndSupply.after_value {e d : DebtAndSupply} (exact : e.Exact) {q : ReserveRequest}
    {action : Action} (h : e.after action q.amount q.outflow = .ok d) :
    d.debt.toRat = truncate (e.debt.toRat + q.lent action) ∧
      d.supply.toRat = truncate (e.supply.toRat + q.supplied action) := by
  have debt : truncate (e.debt.toRat + 0) = e.debt.toRat := by
    rw [add_zero, exact.debt.truncate_eq]
  have supply : truncate (e.supply.toRat + 0) = e.supply.toRat := by
    rw [add_zero, exact.supply.truncate_eq]
  have less {x y z : Decimal} (h : (x - y : Outcome Decimal) = .ok z) :
      z.toRat = truncate (x.toRat + -y.toRat) := by
    rw [sub_value h, sub_eq_add_neg]
  unfold after at h
  cases action
  case deposit | mint =>
    obtain ⟨sum, added, h⟩ := bind_eq_ok_iff.mp h
    cases h
    exact ⟨debt.symm, add_value added⟩
  case withdraw | redeem =>
    obtain ⟨left, taken, h⟩ := bind_eq_ok_iff.mp h
    cases h
    exact ⟨debt.symm, less taken⟩
  case borrow =>
    obtain ⟨sum, added, h⟩ := bind_eq_ok_iff.mp h
    cases h
    exact ⟨add_value added, supply.symm⟩
  case repay =>
    obtain ⟨left, taken, h⟩ := bind_eq_ok_iff.mp h
    cases h
    exact ⟨less taken, supply.symm⟩
  case depositAndBorrow =>
    simp only [bind_eq_ok_iff, ofOption_eq_ok_iff] at h
    obtain ⟨outflow, given, owed, added, sum, supplied, h⟩ := h
    cases h
    refine ⟨?_, add_value supplied⟩
    rw [add_value added, ReserveRequest.lent, ReserveRequest.second, given]
    rfl
  case repayAndWithdraw =>
    simp only [bind_eq_ok_iff, ofOption_eq_ok_iff] at h
    obtain ⟨owed, repaid, outflow, given, left, taken, h⟩ := h
    cases h
    refine ⟨less repaid, ?_⟩
    rw [less taken, ReserveRequest.supplied, ReserveRequest.second, given]
    rfl

/-! ## Rates -/

/-- A pool with no less debt on no more supply. -/
structure DebtAndSupply.Tightens (d d' : DebtAndSupply) : Prop where
  debt : d.debt.toRat ≤ d'.debt.toRat
  supply : d'.supply.toRat ≤ d.supply.toRat
  stocked : 0 < d'.supply.toRat
  owed : d'.supply.toRat = d.supply.toRat ∨ 0 ≤ d'.debt.toRat

theorem DebtAndSupply.utilization_value {d : DebtAndSupply} {u : Decimal}
    (stocked : 0 < d.supply.toRat) (h : d.utilization = .ok u) :
    u.toRat = truncate (d.debt.toRat / d.supply.toRat) := by
  unfold utilization at h
  rw [if_neg (mt (Decimal.isZero_iff _).mp stocked.ne')] at h
  exact (div_value h).2

theorem DebtAndSupply.Tightens.utilization_le {d d' : DebtAndSupply} (tight : d.Tightens d')
    {u u' : Decimal} (h : d.utilization = .ok u) (h' : d'.utilization = .ok u') :
    u.toRat ≤ u'.toRat := by
  have stocked := tight.stocked.trans_le tight.supply
  rw [utilization_value stocked h, utilization_value tight.stocked h']
  refine truncate_mono ?_
  rcases tight.owed with same | owed
  · rw [same]
    exact div_le_div_of_nonneg_right tight.debt stocked.le
  · calc d.debt.toRat / d.supply.toRat
        ≤ d'.debt.toRat / d.supply.toRat := div_le_div_of_nonneg_right tight.debt stocked.le
      _ ≤ d'.debt.toRat / d'.supply.toRat :=
          div_le_div_of_nonneg_left owed tight.stocked tight.supply

namespace Reserve

structure Rises (r : Reserve) (q q' : ReserveRequest) : Prop where
  utilization : ∀ u u', r.utilizationAfter q = .ok u → r.utilizationAfter q' = .ok u' →
    u.toRat ≤ u'.toRat
  borrowApr : ∀ x x', r.borrowAprAfter q = .ok x → r.borrowAprAfter q' = .ok x' →
    x.toRat ≤ x'.toRat

theorem slotAdjustment_nonneg {r : Reserve} (duration : 0 < r.slotDuration) {x : Decimal}
    (h : r.slotAdjustment = .ok x) : 0 ≤ x.toRat := by
  obtain ⟨nominal, given, h⟩ := bind_eq_ok_iff.mp h
  have slots : (0 : ℚ) ≤ slotsPerSecond := by exact_mod_cast (by decide : 0 ≤ slotsPerSecond)
  have whole : (0 : ℚ) ≤ r.slotDuration := by exact_mod_cast duration.le
  rw [(div_value h).2, (div_value given).2, Decimal.toRat_ofInt, Decimal.toRat_ofInt,
    Decimal.toRat_ofNat]
  exact truncate_nonneg (div_nonneg (truncate_nonneg (div_nonneg (by norm_num) slots)) whole)

section
variable {r : Reserve} (opened : r.toPool.openReserve = .ok r) (sorted : r.stats.borrowCurve.Sorted)
  (duration : 0 < r.slotDuration)
include opened sorted duration

theorem rises_of_utilization {q q' : ReserveRequest}
    (le : ∀ u u', r.utilizationAfter q = .ok u → r.utilizationAfter q' = .ok u' →
      u.toRat ≤ u'.toRat) : r.Rises q q' := by
  refine ⟨le, fun x x' h h' => ?_⟩
  unfold borrowAprAfter at h h'
  simp only [bind_eq_ok_iff] at h h'
  obtain ⟨u, used, rate, at_u, adjustment, adjusted, h⟩ := h
  obtain ⟨u', used', rate', at_u', _, same, h'⟩ := h'
  cases adjusted.symm.trans same
  have exact := RateCurve.exact_ofControlPoints (Pool.borrowCurve_of_openReserve opened)
  have rates := RateCurve.rateAt_mono sorted exact (le u u' used used') at_u at_u'
  rw [mul_value h, mul_value h']
  exact truncate_mono
    (mul_le_mul_of_nonneg_right rates (slotAdjustment_nonneg duration adjusted))

/-- A request that lends no less and supplies no more does not lower the rates. -/
theorem rises_of_flows {e : DebtAndSupply} {q q' : ReserveRequest} {action : Action}
    (projected : r.debtAndSupplyAt q.slot q.referralFeeBps = .ok e)
    (slot : q'.slot = q.slot) (fee : q'.referralFeeBps = q.referralFeeBps)
    (resolved : q.action.resolve = .ok action) (resolved' : q'.action.resolve = .ok action)
    (lent : q.lent action ≤ q'.lent action) (supplied : q'.supplied action ≤ q.supplied action)
    (stocked : 0 < truncate (e.supply.toRat + q'.supplied action))
    (owed : q'.supplied action = q.supplied action ∨ 0 ≤ e.debt.toRat + q'.lent action) :
    r.Rises q q' := by
  refine rises_of_utilization opened sorted duration fun u u' h h' => ?_
  have exact := Pool.exact_debtAndSupplyAt projected
  have projected' := projected
  rw [← slot, ← fee] at projected'
  obtain ⟨d, after, h⟩ := bind_eq_ok_iff.mp h
  obtain ⟨d', after', h'⟩ := bind_eq_ok_iff.mp h'
  unfold Pool.debtAndSupplyAfter at after after'
  rw [resolved, projected] at after
  rw [resolved', projected'] at after'
  obtain ⟨debt, supply⟩ := DebtAndSupply.after_value exact after
  obtain ⟨debt', supply'⟩ := DebtAndSupply.after_value exact after'
  have tight : d.Tightens d' := by
    refine ⟨?_, ?_, ?_, ?_⟩
    · rw [debt, debt']
      exact truncate_mono (add_le_add_right lent _)
    · rw [supply, supply']
      exact truncate_mono (add_le_add_right supplied _)
    · rwa [supply']
    · rw [supply, supply', debt']
      exact owed.imp (fun same => by rw [same]) truncate_nonneg
  exact tight.utilization_le h h'

end

end Reserve

/-! ## The size of an action -/

/-- The difference between the supply and an amount, as it is cut, is above zero. -/
def DebtAndSupply.Leaves (e : DebtAndSupply) (x : Decimal) : Prop :=
  0 < truncate (e.supply.toRat - x.toRat)

theorem DebtAndSupply.leaves_of_lt {e : DebtAndSupply} (exact : e.Exact) {x : Decimal}
    (grid : OnGrid x.toRat) (lt : x.toRat < e.supply.toRat) : e.Leaves x :=
  (exact.supply.onGrid.sub grid).truncate_pos (sub_pos.mpr lt)

namespace Reserve

/-- How the rates follow the amounts of a request, per action. -/
structure Responds (r : Reserve) (e : DebtAndSupply) (q : ReserveRequest) (action : Action) :
    Prop where
  borrow : action = .borrow → ∀ a a' : Decimal, a.toRat ≤ a'.toRat →
    r.Rises { q with amount := a } { q with amount := a' }
  withdraw : action = .withdraw ∨ action = .redeem → ∀ a a' : Decimal, a.toRat ≤ a'.toRat →
    e.Leaves a' → r.Rises { q with amount := a } { q with amount := a' }
  deposit : action = .deposit ∨ action = .mint → ∀ a a' : Decimal, 0 ≤ a.toRat →
    a.toRat ≤ a'.toRat → r.Rises { q with amount := a' } { q with amount := a }
  repay : action = .repay → ∀ a a' : Decimal, a.toRat ≤ a'.toRat →
    r.Rises { q with amount := a' } { q with amount := a }
  depositAndBorrow_amount : action = .depositAndBorrow → ∀ a a' o : Decimal, 0 ≤ a.toRat →
    a.toRat ≤ a'.toRat → 0 ≤ e.debt.toRat + o.toRat →
    r.Rises { q with amount := a', outflow := some o } { q with amount := a, outflow := some o }
  depositAndBorrow_outflow : action = .depositAndBorrow → ∀ a o o' : Decimal, 0 ≤ a.toRat →
    o.toRat ≤ o'.toRat →
    r.Rises { q with amount := a, outflow := some o } { q with amount := a, outflow := some o' }
  repayAndWithdraw_amount : action = .repayAndWithdraw → ∀ a a' o : Decimal, e.Leaves o →
    a.toRat ≤ a'.toRat →
    r.Rises { q with amount := a', outflow := some o } { q with amount := a, outflow := some o }
  repayAndWithdraw_outflow : action = .repayAndWithdraw → ∀ a o o' : Decimal,
    a.toRat ≤ e.debt.toRat → o.toRat ≤ o'.toRat → e.Leaves o' →
    r.Rises { q with amount := a, outflow := some o } { q with amount := a, outflow := some o' }
  /-- Amounts without a digit below the finest grid leave something if they are below the supply. -/
  leaves : ∀ x : Decimal, OnGrid x.toRat → x.toRat < e.supply.toRat → e.Leaves x

/-- On a curve that does not fall, utilization and borrow rate follow what is lent out or taken
    out upwards, and what is supplied or repaid downwards. -/
theorem rates_respond {r : Reserve} {e : DebtAndSupply} {q : ReserveRequest} {action : Action}
    (opened : r.toPool.openReserve = .ok r) (sorted : r.stats.borrowCurve.Sorted)
    (duration : 0 < r.slotDuration) (resolved : q.action.resolve = .ok action)
    (projected : r.debtAndSupplyAt q.slot q.referralFeeBps = .ok e)
    (stocked : 0 < e.supply.toRat) (owed : 0 ≤ e.debt.toRat) : r.Responds e q action := by
  have exact := Pool.exact_debtAndSupplyAt projected
  have kept : 0 < truncate (e.supply.toRat + 0) := by
    rwa [add_zero, exact.supply.truncate_eq]
  have grown {a : ℚ} (nonneg : 0 ≤ a) : 0 < truncate (e.supply.toRat + a) :=
    stocked.trans_le (exact.supply.le_truncate (le_add_of_nonneg_right nonneg))
  have left {x : Decimal} (leaves : e.Leaves x) : 0 < truncate (e.supply.toRat + -x.toRat) := by
    rwa [← sub_eq_add_neg]
  have still : 0 ≤ e.debt.toRat + 0 := by rwa [add_zero]
  -- both requests name the same action at the same slot
  have flows {a a' : Decimal} {o o' : Option Decimal} (lent) (supplied) (stocked) (owed) :
      r.Rises { q with amount := a, outflow := o } { q with amount := a', outflow := o' } :=
    rises_of_flows opened sorted duration projected rfl rfl resolved resolved lent supplied stocked
      owed
  refine ⟨?_, ?_, ?_, ?_, ?_, ?_, ?_, ?_, fun x => DebtAndSupply.leaves_of_lt exact⟩
  · rintro rfl a a' le
    exact flows le le_rfl kept (.inl rfl)
  · rintro (rfl | rfl) a a' le leaves
    all_goals exact flows le_rfl (neg_le_neg le) (left leaves) (.inr still)
  · rintro (rfl | rfl) a a' nonneg le
    all_goals exact flows le_rfl le (grown nonneg) (.inr still)
  · rintro rfl a a' le
    exact flows (neg_le_neg le) le_rfl kept (.inl rfl)
  · rintro rfl a a' o nonneg le total
    exact flows le_rfl le (grown nonneg) (.inr total)
  · rintro rfl a o o' nonneg le
    exact flows le le_rfl (grown nonneg) (.inl rfl)
  · rintro rfl a a' o leaves le
    exact flows (neg_le_neg le) le_rfl (left leaves) (.inl rfl)
  · rintro rfl a o o' covered le leaves
    refine flows le_rfl (neg_le_neg le) (left leaves) (.inr ?_)
    exact (sub_nonneg.mpr covered).trans_eq (sub_eq_add_neg _ _)

end Reserve

namespace Sample

def estimate : DebtAndSupply := ⟨⟨false, 3, 9⟩, ⟨false, 3999998, 3⟩⟩

def sized (action : String) (amount : Decimal) (outflow : Option Decimal) : ReserveRequest where
  amount := amount
  action := .text action
  slot := 1000
  referralFeeBps := 0
  outflow := outflow

theorem estimate_eq : reserve.debtAndSupplyAt 1000 0 = .ok estimate := by decide +kernel

end Sample

namespace Reserve

open Sample in
theorem rates_respond_sample :
    reserve.utilizationAfter (sized "withdraw" 0 none) =
        .ok ⟨false, 7500003750001875000937500468750234375117, -40⟩ ∧
      reserve.utilizationAfter (sized "withdraw" 1000000000 none) =
        .ok ⟨false, 1000000666667111111407407604938403292268, -39⟩ ∧
      Decimal.toRat ⟨false, 7500003750001875000937500468750234375117, -40⟩ ≤
        Decimal.toRat ⟨false, 1000000666667111111407407604938403292268, -39⟩ := by
  have before : reserve.utilizationAfter (sized "withdraw" 0 none) =
      .ok ⟨false, 7500003750001875000937500468750234375117, -40⟩ := by decide +kernel
  have after : reserve.utilizationAfter (sized "withdraw" 1000000000 none) =
      .ok ⟨false, 1000000666667111111407407604938403292268, -39⟩ := by decide +kernel
  have responds : reserve.Responds estimate (sized "withdraw" 0 none) .withdraw :=
    rates_respond Pool.opened_sample (by decide +kernel) (by decide) (by decide) estimate_eq
      (by decide +kernel) (by decide +kernel)
  refine ⟨before, after, (responds.withdraw (.inl rfl) 0 1000000000 (by decide +kernel)
    (responds.leaves _ ?_ (by decide +kernel))).utilization _ _ before after⟩
  exact (Decimal.toRat_ofNat 1000000000).symm ▸ onGrid_intCast 1000000000

end Reserve

/-! ## What is cut to nothing -/

/-- A pool without supply is not used at all. -/
theorem DebtAndSupply.utilization_of_supply {d : DebtAndSupply} (none : d.supply.toRat = 0) :
    d.utilization = .ok 0 := by
  unfold utilization
  rw [if_pos ((Decimal.isZero_iff _).mpr none)]
  rfl

/-- An amount that differs from the supply by less than the finest grid shows takes all of it. -/
theorem Pool.utilization_of_underflow {p : Pool} {e : DebtAndSupply} {q : ReserveRequest}
    (resolved : q.action.resolve = .ok .withdraw)
    (projected : p.debtAndSupplyAt q.slot q.referralFeeBps = .ok e)
    (nonneg : 0 ≤ q.amount.toRat) (le : q.amount.toRat ≤ e.supply.toRat)
    (size : e.supply.toRat < Decimal.limit / 2)
    (close : e.supply.toRat - q.amount.toRat < 10 ^ money.leastExponent) :
    p.utilizationAfter q = .ok 0 := by
  obtain ⟨left, taken⟩ : ∃ z, (e.supply - q.amount : Outcome Decimal) = .ok z :=
    exists_sub (by rwa [abs_of_nonneg (nonneg.trans le)])
      (by rw [abs_of_nonneg nonneg]; exact le.trans_lt size)
  have none : left.toRat = 0 := by
    rw [sub_value taken, truncate_eq_zero (sub_nonneg.mpr le) close]
  unfold utilizationAfter debtAndSupplyAfter
  rw [resolved, projected]
  show ((e.after .withdraw q.amount q.outflow) >>= _) = _
  unfold DebtAndSupply.after
  rw [taken]
  exact DebtAndSupply.utilization_of_supply none

namespace Sample

def justBelow (whole places : Nat) : Decimal := ⟨false, whole * 10 ^ places - 1, -places⟩

theorem toRat_justBelow {whole : Nat} (positive : 0 < whole) (places : Nat) :
    (justBelow whole places).toRat = whole - 10 ^ (-places : ℤ) := by
  have ten : (10 : ℚ) ^ places ≠ 0 := by positivity
  have one_le : 1 ≤ whole * 10 ^ places := Nat.mul_pos positive (by positivity)
  rw [justBelow, Decimal.toRat_eq, Decimal.unit_false, one_mul, Nat.cast_sub one_le, zpow_neg,
    zpow_natCast]
  push_cast
  field_simp

end Sample

namespace Reserve

open Sample in
/-- Two ways in which utilization does not follow the size of an action. Of two withdrawals
    below the supply the larger leaves the pool unused, since what it leaves is cut to nothing.
    And if more than the debt is taken back, a deposit brings a negative utilization up. -/
theorem utilization_against_size :
    pool.openReserve = .ok reserve ∧ reserve.stats.borrowCurve.Sorted ∧
      0 < reserve.slotDuration ∧ reserve.debtAndSupplyAt 1000 0 = .ok estimate ∧
      0 < estimate.supply.toRat ∧ 0 ≤ estimate.debt.toRat ∧
    (0 ≤ (justBelow 3999998000 1000039).toRat ∧
      (justBelow 3999998000 1000039).toRat < estimate.supply.toRat ∧
      reserve.utilizationAfter (sized "withdraw" 0 none) =
        .ok ⟨false, 7500003750001875000937500468750234375117, -40⟩ ∧
      reserve.utilizationAfter (sized "withdraw" (justBelow 3999998000 1000039) none) = .ok 0) ∧
    (reserve.utilizationAfter (sized "deposit_and_borrow" 0 (some (Decimal.ofInt (-4000000000)))) =
        .ok ⟨true, 2500001250000625000312500156250078125039, -40⟩ ∧
      reserve.utilizationAfter
          (sized "deposit_and_borrow" 1000000000 (some (Decimal.ofInt (-4000000000)))) =
        .ok ⟨true, 2000000800000320000128000051200020480008, -40⟩) := by
  have supply : estimate.supply.toRat = (3999998000 : Nat) := by decide +kernel
  have amount : (justBelow 3999998000 1000039).toRat =
      (3999998000 : Nat) - 10 ^ (-(1000039 : Nat) : ℤ) := toRat_justBelow (by decide) _
  have short : (0 : ℚ) < 10 ^ (-(1000039 : Nat) : ℤ) := by positivity
  have close : (10 : ℚ) ^ (-(1000039 : Nat) : ℤ) < 10 ^ money.leastExponent :=
    zpow_lt_zpow_right₀ (by norm_num) (by decide)
  have least : (10 : ℚ) ^ money.leastExponent ≤ 1 :=
    zpow_le_one_of_nonpos₀ (by norm_num) (by decide)
  have one_le : (1 : ℚ) ≤ (3999998000 : Nat) := by norm_num
  have nonneg : 0 ≤ (justBelow 3999998000 1000039).toRat := by
    rw [amount]
    exact sub_nonneg.mpr ((close.le.trans least).trans one_le)
  have below : (justBelow 3999998000 1000039).toRat < estimate.supply.toRat := by
    rw [amount, supply]
    exact sub_lt_self _ short
  have size : estimate.supply.toRat < Decimal.limit / 2 := by
    refine lt_of_lt_of_le ?_ (Decimal.zpow_le_half_limit (e := 10) (by decide))
    rw [supply]
    norm_num
  refine ⟨Pool.opened_sample, by decide +kernel, by decide, estimate_eq, by decide +kernel,
    by decide +kernel, ⟨nonneg, below, by decide +kernel, ?_⟩, by decide +kernel, by decide +kernel⟩
  refine Pool.utilization_of_underflow (e := estimate) rfl estimate_eq nonneg below.le size ?_
  show estimate.supply.toRat - (justBelow 3999998000 1000039).toRat < _
  rw [amount, supply, sub_sub_cancel]
  exact close

end Reserve

end Lending
