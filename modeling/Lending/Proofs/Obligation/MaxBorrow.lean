/-
  Lending.Proofs.Obligation.MaxBorrow — the largest loan, taken.

  The limit on the debt becomes an amount of tokens by one chain of factors, and the amount
  becomes weighted debt by the inverse factors in reverse (`Pool.loanSteps`,
  `Pool.debtWeightSteps`). Every step cuts, so going there and back gives no more than was
  spare: after the loan the debt is within the limit, without any tolerance (`Loan.safe`). It
  gives six units less at most if no step loses digits, so a loan bounded by the limit alone
  uses it up but for eight units (`Loan.tight`). Where a step does lose digits, all of the limit
  can be left (`maxBorrow_underflow`).
-/
import Lending.Obligation.Limits
import Lending.Proofs.Obligation.Headroom
import Lending.Proofs.Obligation.Step
import Lending.Proofs.Reserve.Limits

namespace Lending

open Outcome Truncation

/-! ## Reserves -/

structure Reserve.Lends (r : Reserve) : Prop where
  opened : r.toPool.openReserve = .ok r
  price : 0 < r.oraclePrice.toRat
  borrowFactor : 0 < r.config.borrowFactorPct
  available : 0 ≤ r.account.liquidity.availableAmount
  borrowFee : 0 ≤ r.config.fees.rawBorrowFee

/-- What a spare limit is scaled by, step by step, to be a loan. -/
def Pool.loanSteps (p : Pool) (weight factor : Decimal) : List ℚ :=
  [weight.toRat⁻¹, p.oraclePrice.toRat⁻¹, factor.toRat]

def Pool.debtWeightSteps (p : Pool) (weight factor : Decimal) : List ℚ :=
  p.dollarSteps factor ++ [weight.toRat]

theorem Pool.prod_loanSteps {p : Pool} {weight factor : Decimal} (hw : weight.toRat ≠ 0)
    (hp : p.oraclePrice.toRat ≠ 0) (hf : factor.toRat ≠ 0) :
    (p.loanSteps weight factor ++ p.debtWeightSteps weight factor).prod = 1 := by
  simp only [loanSteps, debtWeightSteps, dollarSteps, List.prod_append, List.prod_cons,
    List.prod_nil]
  field_simp

theorem Pool.loanSteps_nonneg {p : Pool} {weight factor : Decimal} (hw : 0 ≤ weight.toRat)
    (hp : 0 ≤ p.oraclePrice.toRat) (hf : 0 ≤ factor.toRat) :
    (∀ step ∈ p.loanSteps weight factor, 0 ≤ step) ∧
      ∀ step ∈ p.debtWeightSteps weight factor, 0 ≤ step := by
  simp [loanSteps, debtWeightSteps, dollarSteps, hw, hp, hf]

/-! ## What bounds a loan -/

namespace Obligation

def loanWeight (o : Obligation) (r : Reserve) : Outcome Decimal :=
  if o.groupIncludes r then pure 1 else r.borrowFactor

structure Loan (o : Obligation) (slot : ℤ) (r : Reserve) (x weight factor power remaining capped
    net : Decimal) : Prop where
  weight_eq : o.loanWeight r = .ok weight
  factor_eq : r.mintFactor = .ok factor
  power_eq : o.borrowPower r weight = .ok power
  power_steps : power.toRat = scaleBy (r.loanSteps weight factor) o.spareLimit
  remaining_eq : o.lendableRemainder r = .ok remaining
  capped_eq : r.withinDebtOutflow (min (min power r.available) remaining) slot = .ok capped
  net_eq : r.netOfBorrowFee capped = .ok net
  amount : x = max 0 net

/-- One computation after the other, whatever decides on the weight. -/
theorem maxBorrow_eq (o : Obligation) (m : Market) (mint : String) (slot : ℤ) :
    o.maxBorrow m mint slot = (m.reserveOfMint mint >>= fun r => o.loanWeight r >>= fun weight =>
      o.borrowPower r weight >>= fun power => o.lendableRemainder r >>= fun remaining =>
      r.withinDebtOutflow (min (min power r.available) remaining) slot >>= fun capped =>
      r.netOfBorrowFee capped >>= fun net => pure (max 0 net)) := by
  unfold maxBorrow
  refine bind_congr fun r _ => ?_
  unfold loanWeight
  split <;> rfl

theorem borrowPower_steps {o : Obligation} {r : Reserve} {weight power : Decimal}
    (h : o.borrowPower r weight = .ok power) :
    ∃ factor, r.mintFactor = .ok factor ∧
      power.toRat = scaleBy (r.loanSteps weight factor) o.spareLimit := by
  unfold borrowPower at h
  simp only [bind_eq_ok_iff] at h
  obtain ⟨spare, hspare, weighted, hweighted, whole, hwhole, factor, hfactor, h⟩ := h
  refine ⟨factor, hfactor, ?_⟩
  rw [mul_value h, (div_value hwhole).2, (div_value hweighted).2, sub_value hspare,
    div_eq_mul_inv, div_eq_mul_inv]
  rfl

theorem loan_of_maxBorrow {o : Obligation} {m : Market} {mint : String} {slot : ℤ} {r : Reserve}
    {x : Decimal} (found : m.reserveOfMint mint = .ok r) (h : o.maxBorrow m mint slot = .ok x) :
    ∃ weight factor power remaining capped net,
      o.Loan slot r x weight factor power remaining capped net := by
  rw [maxBorrow_eq, found] at h
  simp only [bind_eq_ok_iff] at h
  obtain ⟨_, ⟨⟩, weight, hweight, power, hpower, remaining, hremaining, capped, hcapped, net,
    hnet, h⟩ := h
  cases h
  obtain ⟨factor, hfactor, value⟩ := borrowPower_steps hpower
  exact ⟨weight, factor, power, remaining, capped, net, hweight, hfactor, hpower, value,
    hremaining, hcapped, hnet, rfl⟩

theorem lendableRemainder_value {o : Obligation} {r : Reserve} {remaining debt : Decimal}
    (opened : r.toPool.openReserve = .ok r) (hdebt : r.borrowed = .ok debt)
    (h : o.lendableRemainder r = .ok remaining) :
    remaining.toRat = if r.config.collateralOnlyInGroups = 1 ∧ ¬ o.groupIncludes r then 0
      else truncate (r.config.borrowLimit - debt.toRat) := by
  unfold lendableRemainder at h
  rw [(Pool.settings_of_openReserve opened).borrowLimit, hdebt] at h
  obtain ⟨_, ⟨⟩, h⟩ := bind_eq_ok_iff.mp h
  obtain ⟨left, hleft, h⟩ := bind_eq_ok_iff.mp h
  cases h
  split
  · exact Decimal.toRat_zero
  · rw [sub_value hleft, Decimal.toRat_ofInt]

/-- Inside a group nothing can be borrowed that may only be used there. -/
theorem lendableRemainder_le {o : Obligation} {r : Reserve} {remaining debt : Decimal}
    (opened : r.toPool.openReserve = .ok r) (hdebt : r.borrowed = .ok debt)
    (h : o.lendableRemainder r = .ok remaining) :
    remaining.toRat ≤ max 0 (r.config.borrowLimit - debt.toRat) := by
  rw [lendableRemainder_value opened hdebt h]
  split
  · exact le_max_left _ _
  · exact truncate_le_max _

theorem loanWeight_pos {o : Obligation} {r : Reserve} {weight : Decimal} (lends : r.Lends)
    (h : o.loanWeight r = .ok weight) : 0 < weight.toRat := by
  unfold loanWeight at h
  split at h
  · cases h
    rw [Decimal.toRat_one]
    exact zero_lt_one
  · rw [shareOfPercent_value h]
    have percent : (1 : ℚ) ≤ r.config.borrowFactorPct := by exact_mod_cast lends.borrowFactor
    refine lt_of_lt_of_le (by norm_num : (0 : ℚ) < 1 / 100) (Representable.le_truncate
      ⟨1, -2, by norm_num, by decide, by norm_num⟩ ?_)
    exact div_le_div_of_nonneg_right percent (by norm_num)

/-- A simulated loan weighs what the largest one was worked out with. -/
theorem debtWeight_eq_loanWeight {o : Obligation} {r : Reserve} (lends : r.Lends)
    (admitted : o.Admits r) : r.debtWeight o.elevationGroup = o.loanWeight r := by
  unfold Reserve.debtWeight loanWeight groupIncludes
  rcases admitted with none | listed
  · rw [none]
    show shareOfPercent r.stats.borrowFactorPct = r.borrowFactor
    rw [(Pool.settings_of_openReserve lends.opened).borrowFactorPct]
    rfl
  · by_cases none : o.elevationGroup = 0
    · rw [none]
      show shareOfPercent r.stats.borrowFactorPct = r.borrowFactor
      rw [(Pool.settings_of_openReserve lends.opened).borrowFactorPct]
      rfl
    · rw [if_pos none, if_pos (by simp [none] at listed ⊢; exact listed)]

theorem maxBorrow_overflowOnly {o : Obligation} {m : Market} {mint : String} {r : Reserve}
    (found : m.reserveOfMint mint = .ok r) (lends : r.Lends) (slot : ℤ) :
    (o.maxBorrow m mint slot).OverflowOnly := by
  have weighed : (o.loanWeight r).OverflowOnly := by
    unfold loanWeight
    split
    · exact .pure _
    · exact shareOfPercent_overflowOnly _
  obtain ⟨f⟩ := Pool.figures_of_openReserve lends.opened
  rw [maxBorrow_eq]
  refine .bind (.of_eq found) fun r' same => ?_
  cases found.symm.trans same
  refine .bind weighed fun weight hweight => .bind ?_ fun power _ => .bind ?_ fun remaining _ =>
    (Pool.withinOutflow_overflowOnly _ _ _ _).bind fun capped _ =>
    (Pool.netOfBorrowFee_overflowOnly lends.borrowFee _).bind fun _ _ => .pure _
  · have weight_pos := loanWeight_pos lends hweight
    exact (sub_overflowOnly _ _).bind fun _ _ => (div_overflowOnly _ weight_pos.ne').bind
      fun _ _ => (div_overflowOnly _ lends.price.ne').bind fun _ _ =>
      (powerOfTen_overflowOnly _).bind fun _ _ => mul_overflowOnly _ _
  · exact (OverflowOnly.of_eq f.borrowed_eq).bind fun _ _ => (sub_overflowOnly _ _).bind
      fun _ _ => .pure _

/-! ## The loan taken -/

/-- Nothing but the limit of the obligation bounds a loan. -/
def PowerBinds (o : Obligation) (r : Reserve) (slot : ℤ) : Prop :=
  ∀ weight power remaining, o.loanWeight r = .ok weight → o.borrowPower r weight = .ok power →
    o.lendableRemainder r = .ok remaining →
    power.toRat ≤ r.account.liquidity.availableAmount ∧ power.toRat ≤ remaining.toRat ∧
      (0 < r.config.debtOutflow.capacity →
        power.toRat ≤ r.capRemainder r.config.debtOutflow slot)

def LoanKeepsDigits (o : Obligation) (r : Reserve) : Prop :=
  ∀ weight factor, o.loanWeight r = .ok weight → r.mintFactor = .ok factor →
    KeepsDigits (r.loanSteps weight factor ++ r.debtWeightSteps weight factor) o.spareLimit

section
variable {o : Obligation} {m : Market} {mint : String} {slot : ℤ} {r : Reserve}
  {x weight factor power remaining capped net : Decimal} {q : ObligationRequest} {s : Scenario}

section
variable (loan : o.Loan slot r x weight factor power remaining capped net)
include loan

/-- What simulating the largest loan makes of the weighted debt; the limit stays. -/
theorem Loan.simulated (found : m.reserveOfMint mint = .ok r) (lends : r.Lends)
    (asks : q.Asks .borrow x mint) (h : o.simulate m q = .ok s) :
    factor.toRat ≠ 0 ∧ s.stats.borrowLimit = o.stats.borrowLimit ∧
      s.stats.weightedBorrow.toRat = moved o.stats.weightedBorrow.toRat
        (scaleBy (r.debtWeightSteps weight factor) x.toRat) := by
  obtain ⟨once, leg, weighted, limit⟩ := simulate_borrow asks h
  obtain ⟨own, stepWeight, value, changed, step⟩ := addBorrow_step leg
  cases found.symm.trans step.reserve_eq
  obtain ⟨stepFactor, hfactor, nonzero, dollars⟩ := Pool.valueOf_steps step.value_eq
  cases loan.factor_eq.symm.trans hfactor
  have weight_eq := step.weight_eq
  rw [debtWeight_eq_loanWeight lends step.admitted] at weight_eq
  cases loan.weight_eq.symm.trans weight_eq
  refine ⟨nonzero, limit.trans step.borrowLimit, ?_⟩
  rw [weighted, step.weightedBorrow, dollars, Pool.debtWeightSteps, scaleBy_append_singleton]
  rfl

theorem Loan.value : x.toRat = max 0 net.toRat := by
  rw [loan.amount, Decimal.toRat_max, Decimal.toRat_zero]

theorem Loan.le_capped : x.toRat ≤ max 0 capped.toRat := by
  rw [loan.value]
  exact max_le (le_max_left _ _) (Pool.netOfBorrowFee_le loan.net_eq)

theorem Loan.representable_power : Representable power.toRat := by
  rw [loan.power_steps]
  exact representable_scaleBy (List.cons_ne_nil _ _) _

/-- A loan is no more than any of its bounds, and nothing if one of them is below zero. -/
theorem Loan.le_bounds : 0 ≤ x.toRat ∧ x.toRat ≤ max 0 power.toRat ∧
    x.toRat ≤ max 0 (r.account.liquidity.availableAmount : ℚ) ∧
    x.toRat ≤ max 0 remaining.toRat ∧
    (0 < r.config.debtOutflow.capacity →
      x.toRat ≤ max 0 (truncate (r.capRemainder r.config.debtOutflow slot))) := by
  obtain ⟨capped_le, within_cap⟩ := Pool.withinOutflow_bounds loan.capped_eq
  rw [Decimal.toRat_min, Decimal.toRat_min, Pool.available, Decimal.toRat_ofInt] at capped_le
  have bounded {y : ℚ} (le : capped.toRat ≤ y) : x.toRat ≤ max 0 y :=
    loan.le_capped.trans (max_le_max le_rfl le)
  refine ⟨?_, bounded ?_, bounded ?_, bounded ?_, fun limited => bounded (within_cap limited)⟩
  · rw [loan.value]
    exact le_max_left _ _
  · exact capped_le.trans ((min_le_left _ _).trans (min_le_left _ _))
  · exact capped_le.trans ((min_le_left _ _).trans (min_le_right _ _))
  · exact capped_le.trans (min_le_right _ _)

/-- What is offered comes from a limit that lends something. -/
theorem Loan.power_pos (offered : 0 < x.toRat) : 0 < power.toRat :=
  (lt_max_iff.mp (offered.trans_le loan.le_bounds.2.1)).resolve_left (lt_irrefl 0)

theorem Loan.capped_pos (offered : 0 < x.toRat) : 0 < capped.toRat :=
  (lt_max_iff.mp (offered.trans_le loan.le_capped)).resolve_left (lt_irrefl 0)

theorem Loan.steps_nonneg (lends : r.Lends) : (∀ step ∈ r.loanSteps weight factor, 0 ≤ step) ∧
    ∀ step ∈ r.debtWeightSteps weight factor, 0 ≤ step :=
  Pool.loanSteps_nonneg (loanWeight_pos lends loan.weight_eq).le lends.price.le
    (Pool.mintFactor_nonneg loan.factor_eq)

theorem Loan.prod_steps (lends : r.Lends) (nonzero : factor.toRat ≠ 0) :
    (r.loanSteps weight factor ++ r.debtWeightSteps weight factor).prod = 1 :=
  Pool.prod_loanSteps (loanWeight_pos lends loan.weight_eq).ne' lends.price.ne' nonzero

theorem Loan.spareLimit_nonneg (lends : r.Lends) (offered : 0 < x.toRat) : 0 ≤ o.spareLimit := by
  by_contra short
  have nothing := scaleBy_mono_right (loan.steps_nonneg lends).1 (not_le.mp short).le
  rw [scaleBy_zero, ← loan.power_steps] at nothing
  exact absurd (loan.power_pos offered) (not_lt.mpr nothing)

theorem Loan.power_nonneg (lends : r.Lends) (within : WithinLimit o.stats) : 0 ≤ power.toRat := by
  rw [loan.power_steps]
  exact scaleBy_nonneg (loan.steps_nonneg lends).1 (spareLimit_mem within).1

/-- What the largest loan adds to the weighted debt is spare. -/
theorem Loan.weight_le (lends : r.Lends) (nonzero : factor.toRat ≠ 0)
    (within : WithinLimit o.stats) :
    scaleBy (r.debtWeightSteps weight factor) x.toRat ≤
      o.stats.borrowLimit.toRat - o.stats.weightedBorrow.toRat := by
  obtain ⟨out, back⟩ := loan.steps_nonneg lends
  obtain ⟨spare_nonneg, spare_le⟩ := spareLimit_mem within
  obtain ⟨-, x_le, -⟩ := loan.le_bounds
  rw [max_eq_right (loan.power_nonneg lends within)] at x_le
  calc scaleBy (r.debtWeightSteps weight factor) x.toRat
      ≤ scaleBy (r.debtWeightSteps weight factor) power.toRat := scaleBy_mono_right back x_le
    _ = scaleBy (r.loanSteps weight factor ++ r.debtWeightSteps weight factor) o.spareLimit := by
        rw [loan.power_steps, scaleBy_append]
    _ ≤ o.spareLimit * (r.loanSteps weight factor ++ r.debtWeightSteps weight factor).prod :=
        scaleBy_le (List.forall_mem_append.mpr ⟨out, back⟩) spare_nonneg
    _ = o.spareLimit := by rw [loan.prod_steps lends nonzero, mul_one]
    _ ≤ o.stats.borrowLimit.toRat - o.stats.weightedBorrow.toRat := spare_le

/-- The largest loan, once taken, is within the limit. -/
theorem Loan.safe (valued : o.Valued) (limit : 0 ≤ o.stats.borrowLimit.toRat)
    (found : m.reserveOfMint mint = .ok r) (lends : r.Lends) (asks : q.Asks .borrow x mint)
    (h : o.simulate m q = .ok s) (within : WithinLimit o.stats) : WithinLimit s.stats := by
  obtain ⟨nonzero, same_limit, after⟩ := loan.simulated found lends asks h
  have added := loan.weight_le lends nonzero within
  unfold WithinLimit
  rw [same_limit, after]
  exact max_le (valued.representable_borrowLimit.truncate_le (by linarith)) limit

/-- Without a fee, a loan bounded by the limit alone is all that the limit gives. -/
theorem Loan.eq_power (power_nonneg : 0 ≤ power.toRat) (binds : o.PowerBinds r slot)
    (free : ∀ fee, r.borrowFee = .ok fee → fee.toRat = 0) : x.toRat = power.toRat := by
  obtain ⟨available, left, cap⟩ := binds weight power remaining loan.weight_eq loan.power_eq
    loan.remaining_eq
  have exact := loan.representable_power
  have least : (min (min power r.available) remaining).toRat = power.toRat := by
    rw [Decimal.toRat_min, Decimal.toRat_min, Pool.available, Decimal.toRat_ofInt,
      min_eq_left available, min_eq_left left]
  have capped_value : capped.toRat = power.toRat := by
    rw [Pool.withinOutflow_eq loan.capped_eq (least ▸ exact) (least ▸ cap), least]
  have net_value : net.toRat = power.toRat := by
    rw [Pool.netOfBorrowFee_eq loan.net_eq free (capped_value ▸ exact), capped_value]
  rw [loan.value, net_value, max_eq_right power_nonneg]

/-- Six cuts on the way there and back take six units at most. -/
theorem Loan.le_weight (lends : r.Lends) (nonzero : factor.toRat ≠ 0)
    (within : WithinLimit o.stats) (free : ∀ fee, r.borrowFee = .ok fee → fee.toRat = 0)
    (binds : o.PowerBinds r slot) (kept : o.LoanKeepsDigits r) :
    (1 - (6 : ℕ) * ulp) * o.spareLimit ≤ scaleBy (r.debtWeightSteps weight factor) x.toRat := by
  have there_and_back := within_scaleBy (by simp [Pool.loanSteps, Pool.debtWeightSteps,
    Pool.dollarSteps]) (kept weight factor loan.weight_eq loan.factor_eq)
  rw [loan.prod_steps lends nonzero, mul_one, scaleBy_append, ← loan.power_steps,
    ← loan.eq_power (loan.power_nonneg lends within) binds free] at there_and_back
  exact there_and_back.ge (spareLimit_mem within).1

/-- The largest loan uses the limit up but for one unit of what was spare, six on the way there
    and back, and one of the new debt. -/
theorem Loan.tight (valued : o.Valued) (weighted : 0 ≤ o.stats.weightedBorrow.toRat)
    (found : m.reserveOfMint mint = .ok r) (lends : r.Lends) (asks : q.Asks .borrow x mint)
    (h : o.simulate m q = .ok s) (within : WithinLimit o.stats)
    (free : ∀ fee, r.borrowFee = .ok fee → fee.toRat = 0) (binds : o.PowerBinds r slot)
    (kept : o.LoanKeepsDigits r) :
    s.stats.borrowLimit.toRat - s.stats.weightedBorrow.toRat ≤
      s.stats.borrowLimit.toRat / 10 ^ 37 := by
  obtain ⟨nonzero, same_limit, after⟩ := loan.simulated found lends asks h
  have spare_low := valued.sub_spareLimit_le within
  have added_low := loan.le_weight lends nonzero within free binds kept
  have added_nonneg := scaleBy_nonneg (loan.steps_nonneg lends).2 loan.le_bounds.1
  have added_exact : Representable (scaleBy (r.debtWeightSteps weight factor) x.toRat) :=
    representable_scaleBy (by simp [Pool.debtWeightSteps]) _
  have cut := sub_truncate_le (add_nonneg weighted added_nonneg)
    (valued.representable_weightedBorrow.onGrid.add added_exact.onGrid).not_underflows
  rw [same_limit, after]
  have floor : truncate (o.stats.weightedBorrow.toRat +
      scaleBy (r.debtWeightSteps weight factor) x.toRat) ≤ moved o.stats.weightedBorrow.toRat
        (scaleBy (r.debtWeightSteps weight factor) x.toRat) := le_max_left _ _
  unfold WithinLimit at within
  rw [ulp_eq] at spare_low added_low cut
  push_cast at added_low
  linarith

end

/-- A largest loan, beside the bounds of the reserve and the limit of the obligation. -/
structure LoanFits (o : Obligation) (m : Market) (mint : String) (slot : ℤ) (r : Reserve)
    (x : Decimal) : Prop where
  nonneg : 0 ≤ x.toRat
  le_available : x.toRat ≤ r.account.liquidity.availableAmount
  le_limit : ∀ debt, r.borrowed = .ok debt →
    x.toRat ≤ max 0 (r.config.borrowLimit - debt.toRat)
  le_capacity : 0 < r.config.debtOutflow.capacity →
    x.toRat ≤ max 0 (r.capRemainder r.config.debtOutflow slot)
  safe : ∀ q s, q.Asks .borrow x mint → o.simulate m q = .ok s → WithinLimit o.stats →
    WithinLimit s.stats
  tight : ∀ q s, q.Asks .borrow x mint → o.simulate m q = .ok s → WithinLimit o.stats →
    (∀ fee, r.borrowFee = .ok fee → fee.toRat = 0) → o.PowerBinds r slot → o.LoanKeepsDigits r →
    s.stats.borrowLimit.toRat - s.stats.weightedBorrow.toRat ≤
      s.stats.borrowLimit.toRat / 10 ^ 37

end

/-- The largest loan fits its bounds and, once taken, the limit exactly; and it uses the limit
    up if nothing else bounds it and no step loses digits. -/
theorem maxBorrow_fits {o : Obligation} (valued : o.Valued)
    (weighted : 0 ≤ o.stats.weightedBorrow.toRat) (limit : 0 ≤ o.stats.borrowLimit.toRat)
    {m : Market} {mint : String} {r : Reserve} (found : m.reserveOfMint mint = .ok r)
    (lends : r.Lends) (slot : ℤ) :
    (o.maxBorrow m mint slot).OverflowOnly ∧
      ∀ x, o.maxBorrow m mint slot = .ok x → o.LoanFits m mint slot r x := by
  refine ⟨maxBorrow_overflowOnly found lends slot, fun x h => ?_⟩
  obtain ⟨weight, factor, power, remaining, capped, net, loan⟩ := loan_of_maxBorrow found h
  obtain ⟨nonneg, -, available, left, cap⟩ := loan.le_bounds
  refine ⟨nonneg, ?_, ?_, ?_, ?_, ?_⟩
  · have some : (0 : ℚ) ≤ r.account.liquidity.availableAmount := by exact_mod_cast lends.available
    rwa [max_eq_right some] at available
  · intro debt hdebt
    have remaining_le := lendableRemainder_le lends.opened hdebt loan.remaining_eq
    exact left.trans (max_le (le_max_left _ _) remaining_le)
  · intro limited
    exact (cap limited).trans (max_le (le_max_left _ _) (truncate_le_max _))
  · intro q s asks simulated within
    exact loan.safe valued limit found lends asks simulated within
  · intro q s asks simulated within free binds kept
    exact loan.tight valued weighted found lends asks simulated within free binds kept

end Obligation

/-! ## Samples -/

namespace Sample

def lender : Reserve :=
  { pool with
    account := { account with config := { account.config with borrowLimit := 1000000000000 } }
    stats := { stats with borrowLimit := Decimal.ofInt 1000000000000 } }

def lenderMarket : Market := { market with reserves := ⟨[("reserve", lender)]⟩ }

/-- A token of which a whole one is worth next to everything. -/
def lumps : Reserve := idle "lumps" "lump" 999990 ⟨false, 1, 999999⟩

def dustMarket : Market where
  address := "market"
  account := {}
  reserves := ⟨[("grains", idle "grains" "grain" 0 ⟨false, 1, -50⟩), ("lumps", lumps)]⟩

def dustOwner : Obligation where
  address := "obligation"
  account := {
    market := "market"
    owner := "owner"
    deposits := [{ reserve := "grains", depositedAmount := 1 }] }
  deposits := ⟨[("grains", ⟨"grains", "grain", 1, ⟨false, 1, -50⟩⟩)]⟩
  borrows := .empty
  stats := {
    totalDeposit := ⟨false, 1, -50⟩
    totalBorrow := 0
    weightedBorrow := 0
    borrowLimit := ⟨false, 8, -51⟩
    liquidationLimit := ⟨false, 85, -52⟩
    borrowUtilization := 0
    netValue := ⟨false, 1, -50⟩
    loanToValue := 0
    liquidationLtv := ⟨false, 85, -2⟩
    leverage := 1 }

end Sample

namespace Obligation

theorem lends_sample : Sample.lender.Lends :=
  ⟨by decide +kernel, by decide +kernel, by decide, by decide, by decide⟩

/-- A loan that the limit alone bounds, and that uses it up. -/
theorem maxBorrow_fits_sample : ∃ x s,
    Sample.obligation.maxBorrow Sample.lenderMarket "token" 1000 = .ok x ∧
    Sample.obligation.simulate Sample.lenderMarket (Sample.request "borrow" x "token") = .ok s ∧
    0 < x.toRat ∧ Sample.obligation.LoanFits Sample.lenderMarket "token" 1000 Sample.lender x ∧
    s.stats.borrowLimit.toRat - s.stats.weightedBorrow.toRat ≤
      s.stats.borrowLimit.toRat / 10 ^ 37 := by
  have computed : Sample.obligation.maxBorrow Sample.lenderMarket "token" 1000 =
      .ok ⟨false, 21999984, -1⟩ := by decide +kernel
  obtain ⟨s, simulated⟩ := exists_of_isOk (show (Sample.obligation.simulate Sample.lenderMarket
    (Sample.request "borrow" ⟨false, 21999984, -1⟩ "token")).isOk by decide +kernel)
  have fits := (maxBorrow_fits valued_sample (by decide +kernel) (by decide +kernel)
    (show Sample.lenderMarket.reserveOfMint "token" = .ok Sample.lender by decide +kernel)
    lends_sample 1000).2 _ computed
  have within : WithinLimit Sample.obligation.stats := by
    show Sample.obligation.stats.weightedBorrow.toRat ≤ Sample.obligation.stats.borrowLimit.toRat
    decide +kernel
  have weight_eq : Sample.obligation.loanWeight Sample.lender = .ok 1 := by decide +kernel
  have free : ∀ fee, Sample.lender.borrowFee = .ok fee → fee.toRat = 0 := by
    intro fee hfee
    cases (show Sample.lender.borrowFee = .ok 0 by decide +kernel).symm.trans hfee
    decide +kernel
  have binds : Sample.obligation.PowerBinds Sample.lender 1000 := by
    intro weight power remaining hw hp hr
    cases weight_eq.symm.trans hw
    cases (show Sample.obligation.borrowPower Sample.lender 1 = .ok ⟨false, 21999984, -1⟩ by
      decide +kernel).symm.trans hp
    cases (show Sample.obligation.lendableRemainder Sample.lender = .ok ⟨false, 997, 9⟩ by
      decide +kernel).symm.trans hr
    exact ⟨by decide +kernel, by decide +kernel, fun limited => absurd limited (by decide)⟩
  have kept : Sample.obligation.LoanKeepsDigits Sample.lender := by
    intro weight factor hw hf
    cases weight_eq.symm.trans hw
    cases (show Sample.lender.mintFactor = .ok ⟨false, 1, 6⟩ by decide +kernel).symm.trans hf
    have low : (10 : ℚ) ^ (0 : ℤ) ≤ |Sample.obligation.spareLimit| := by
      refine le_abs.mpr (.inl ((representable_zpow (by decide)).le_truncate ?_))
      decide +kernel
    refine keepsDigits_of_le low (d := 6) ?_ (by norm_num) (by decide)
    decide +kernel
  exact ⟨_, s, computed, simulated, by decide +kernel, fits,
    fits.tight _ s ⟨by decide, rfl, rfl⟩ simulated within free binds kept⟩

/-- The price of a token can be so high that dividing by it loses all of the limit: nothing is
    offered, though an amount is there that uses the limit up. -/
theorem maxBorrow_underflow : ∃ s used,
    Sample.dustMarket.reserveOfMint "lump" = .ok Sample.lumps ∧ Sample.lumps.Lends ∧
    Sample.dustOwner.Valued ∧ 0 ≤ Sample.dustOwner.stats.weightedBorrow.toRat ∧
    WithinLimit Sample.dustOwner.stats ∧ (∀ fee, Sample.lumps.borrowFee = .ok fee → fee.toRat = 0) ∧
    Sample.dustOwner.PowerBinds Sample.lumps 0 ∧
    Sample.dustOwner.maxBorrow Sample.dustMarket "lump" 0 = .ok 0 ∧
    Sample.dustOwner.simulate Sample.dustMarket (Sample.request "borrow" 0 "lump") = .ok s ∧
    ¬ s.stats.borrowLimit.toRat - s.stats.weightedBorrow.toRat ≤
      s.stats.borrowLimit.toRat / 10 ^ 37 ∧
    Sample.dustOwner.simulate Sample.dustMarket (Sample.request "borrow" ⟨false, 8, -60⟩ "lump")
      = .ok used ∧
    used.stats.weightedBorrow.toRat = used.stats.borrowLimit.toRat := by
  have lends : Sample.lumps.Lends := by
    refine ⟨by decide +kernel, ?_, by decide, by decide, by decide⟩
    rw [← Decimal.toRat_zero]
    exact (Decimal.lt_iff _ _).mp (by decide +kernel)
  have free : ∀ fee, Sample.lumps.borrowFee = .ok fee → fee.toRat = 0 := by
    intro fee hfee
    cases (show Sample.lumps.borrowFee = .ok 0 by decide +kernel).symm.trans hfee
    decide +kernel
  have binds : Sample.dustOwner.PowerBinds Sample.lumps 0 := by
    intro weight power remaining hw hp hr
    cases (show Sample.dustOwner.loanWeight Sample.lumps = .ok 1 by decide +kernel).symm.trans hw
    cases (show Sample.dustOwner.borrowPower Sample.lumps 1 = .ok 0 by
      decide +kernel).symm.trans hp
    cases (show Sample.dustOwner.lendableRemainder Sample.lumps = .ok ⟨false, 1, 3⟩ by
      decide +kernel).symm.trans hr
    exact ⟨by decide +kernel, by decide +kernel, fun limited => absurd limited (by decide)⟩
  refine ⟨{ Sample.dustOwner.scenario with
      borrows := ⟨[("lumps", ⟨"lumps", "lump", 0, 0⟩)]⟩ },
    { Sample.dustOwner.scenario with
      stats := { Sample.dustOwner.stats with
        totalBorrow := ⟨false, 8, -51⟩, weightedBorrow := ⟨false, 8, -51⟩,
        borrowUtilization := 1, netValue := ⟨false, 2, -51⟩, loanToValue := ⟨false, 8, -1⟩,
        leverage := 5 }
      borrows := ⟨[("lumps", ⟨"lumps", "lump", ⟨false, 8, -60⟩, ⟨false, 8, -51⟩⟩)]⟩ },
    by decide +kernel, lends, ⟨Sample.dustMarket, none, none, by decide +kernel⟩,
    by decide +kernel, ?_, free, binds, by decide +kernel, by decide +kernel, by decide +kernel,
    by decide +kernel, by decide +kernel⟩
  show Sample.dustOwner.stats.weightedBorrow.toRat ≤ Sample.dustOwner.stats.borrowLimit.toRat
  decide +kernel

end Obligation

end Lending
