/-
  Lending.Proofs.Obligation.OutsideGroup — the limits of a reserve outside the obligation's group.

  An obligation in a group may use the reserves that list it. Outside, a simulation fails
  (`simulate_borrow_outside`), while the largest loan is worked out as if the obligation were in
  no group (`maxBorrow_ungrouped`). So a reserve offers loans that no simulation grants, unless
  its asset may be used inside its groups only (`maxBorrow_offered`).

  A deposit counts with the loan-to-value of the group, wherever it is held. The largest
  withdrawal is worked out with that of the reserve if it is outside. That is safe as long as
  the margin makes up for the difference, and takes more than is spare as soon as it does not
  (`maxWithdraw_outside`).
-/
import Lending.Proofs.Obligation.MaxBorrow
import Lending.Proofs.Obligation.MaxWithdraw

namespace Lending

open Outcome Truncation

/-! ## Simulated loans -/

theorem ObligationStats.addBorrow_overflowOnly (s : ObligationStats) (value weighted : Decimal) :
    (s.addBorrow value weighted).OverflowOnly :=
  (add_overflowOnly _ _).bind fun _ _ => (add_overflowOnly _ _).bind fun _ _ => .pure _

theorem ObligationStats.addDeposit_overflowOnly (s : ObligationStats) (terms : CollateralTerms)
    (value : Decimal) : (s.addDeposit terms value).OverflowOnly :=
  (add_overflowOnly _ _).bind fun _ _ => (mul_overflowOnly _ _).bind fun _ _ =>
    (add_overflowOnly _ _).bind fun _ _ => (mul_overflowOnly _ _).bind fun _ _ =>
    (add_overflowOnly _ _).bind fun _ _ => (ratioOrZero_overflowOnly _ _).bind fun _ _ => .pure _

theorem ObligationStats.refresh_overflowOnly (s : ObligationStats) : s.refresh.OverflowOnly :=
  (sub_overflowOnly _ _).bind fun _ _ => (ratioOrZero_overflowOnly _ _).bind fun _ _ =>
    (ratioOrZero_overflowOnly _ _).bind fun _ _ => (ratioOrZero_overflowOnly _ _).bind
      fun _ _ => .pure _

theorem Position.add_overflowOnly (p : Position) (amount value : Decimal) :
    (p.add amount value).OverflowOnly :=
  (Lending.add_overflowOnly _ _).bind fun _ _ => (Lending.add_overflowOnly _ _).bind
    fun _ _ => .pure _

/-- In a group, deposits count on the same terms wherever they are held. -/
theorem Market.collateralTerms_of_grouped (m : Market) {group : ℤ} (grouped : group ≠ 0)
    (r r' : Reserve) : m.collateralTerms group r = m.collateralTerms group r' := by
  unfold collateralTerms
  rw [if_neg grouped, if_neg grouped]

namespace Obligation

variable {o : Obligation} {m : Market} {mint : String} {r : Reserve}

theorem requireGroup_of_admits (admitted : o.Admits r) (purpose : String) :
    o.requireGroup r purpose = .ok () := by
  unfold requireGroup
  rw [if_neg]
  · rfl
  · rintro ⟨grouped, outside⟩
    exact admitted.elim grouped outside

theorem requireGroup_of_not_admits (outside : ¬ o.Admits r) (purpose : String) :
    o.requireGroup r purpose = .error (.groupDowngrade purpose) := by
  unfold requireGroup
  rw [if_pos]
  exact ⟨fun none => outside (.inl none), fun listed => outside (.inr listed)⟩

theorem simulate_borrow_eq {q : ObligationRequest} {x : Decimal} (asks : q.Asks .borrow x mint) :
    o.simulate m q = o.addBorrow m o.scenario x mint >>= fun once =>
      once.stats.refresh >>= fun stats => pure { once with stats } := by
  unfold simulate
  rw [asks.action_eq]
  show ((o.addLeg m o.scenario ⟨.borrow, q.amount, q.mint⟩ >>= fun once => pure once)
    >>= fun _ => _) = _
  rw [bind_pure, asks.amount_eq, asks.mint_eq]
  rfl

section
variable (found : m.reserveOfMint mint = .ok r) {q : ObligationRequest} {x : Decimal}
  (asks : q.Asks .borrow x mint)
include found asks

/-- Inside its group, only an overflow can keep an obligation from a simulated loan. -/
theorem simulate_borrow_overflowOnly (admitted : o.Admits r) {factor : Decimal}
    (hfactor : r.mintFactor = .ok factor) (nonzero : factor.toRat ≠ 0) :
    (o.simulate m q).OverflowOnly := by
  rw [simulate_borrow_eq asks]
  refine .bind (.bind (.of_eq found) fun own same => ?_) fun _ _ =>
    (ObligationStats.refresh_overflowOnly _).bind fun _ _ => .pure _
  cases found.symm.trans same
  exact .bind (.of_eq (requireGroup_of_admits admitted _)) fun _ _ =>
    (Reserve.debtWeight_overflowOnly _ _).bind fun _ _ =>
    (Pool.valueOf_overflowOnly hfactor nonzero _).bind fun _ _ =>
    (mul_overflowOnly _ _).bind fun _ _ =>
    (ObligationStats.addBorrow_overflowOnly _ _ _).bind fun _ _ =>
    (Position.add_overflowOnly _ _ _).bind fun _ _ => .pure _

theorem simulate_borrow_outside (outside : ¬ o.Admits r) :
    o.simulate m q = .error (.groupDowngrade "borrow from") := by
  rw [simulate_borrow_eq asks]
  unfold addBorrow
  rw [found]
  show ((o.requireGroup r "borrow from" >>= fun _ => _) >>= fun _ => _) = _
  rw [requireGroup_of_not_admits outside]
  rfl

end

/-! ## Offered loans -/

def ungrouped (o : Obligation) : Obligation :=
  { o with account := { o.account with elevationGroup := 0 } }

theorem groupIncludes_of_not_admits (outside : ¬ o.Admits r) : o.groupIncludes r = false := by
  unfold groupIncludes
  rw [Bool.and_eq_false_iff]
  exact .inr (Bool.eq_false_iff.mpr fun listed => outside (.inr listed))

/-- The largest loan from a reserve outside the group is that of an obligation in no group. -/
theorem maxBorrow_ungrouped (found : m.reserveOfMint mint = .ok r) (outside : ¬ o.Admits r)
    (slot : ℤ) : o.maxBorrow m mint slot = o.ungrouped.maxBorrow m mint slot := by
  have same : o.groupIncludes r = o.ungrouped.groupIncludes r :=
    groupIncludes_of_not_admits outside
  rw [maxBorrow_eq, maxBorrow_eq, found]
  show (o.loanWeight r >>= fun _ => _) = (o.ungrouped.loanWeight r >>= fun _ => _)
  unfold loanWeight lendableRemainder
  rw [same]
  rfl

/-- A loan that is offered, and what simulating it gives. -/
structure OfferedLoan (o : Obligation) (m : Market) (mint : String) (slot : ℤ) (r : Reserve)
    (x : Decimal) (q : ObligationRequest) : Prop where
  granted : o.Admits r → (o.simulate m q).OverflowOnly
  rejected : ¬ o.Admits r → o.simulate m q = .error (.groupDowngrade "borrow from")
  ungrouped : ¬ o.Admits r → o.ungrouped.maxBorrow m mint slot = .ok x
  anywhere : ¬ o.Admits r → r.config.collateralOnlyInGroups ≠ 1

section
variable {slot : ℤ} {x weight factor power remaining capped net : Decimal}
  (loan : o.Loan slot r x weight factor power remaining capped net) (offered : 0 < x.toRat)
include loan offered

theorem Loan.factor_ne_zero : factor.toRat ≠ 0 := by
  intro none
  refine (loan.power_pos offered).ne' ?_
  rw [loan.power_steps, Pool.loanSteps, none]
  show truncate (truncate (truncate (o.spareLimit * weight.toRat⁻¹) * r.oraclePrice.toRat⁻¹) * 0)
    = 0
  rw [mul_zero, truncate_zero]

theorem Loan.anywhere (outside : ¬ o.Admits r) : r.config.collateralOnlyInGroups ≠ 1 := by
  intro inside
  obtain ⟨-, -, -, le_remaining, -⟩ := loan.le_bounds
  have gate := loan.remaining_eq
  unfold lendableRemainder at gate
  simp only [bind_eq_ok_iff] at gate
  obtain ⟨debt, -, left, -, gate⟩ := gate
  rw [if_pos ⟨inside, by simp [groupIncludes_of_not_admits outside]⟩] at gate
  cases gate
  rw [Decimal.toRat_zero, max_self] at le_remaining
  exact absurd offered (not_lt.mpr le_remaining)

end

/-- A loan that is offered is granted in a simulation, unless the reserve is outside the
    obligation's group: from there every loan is rejected, whatever is offered. -/
theorem maxBorrow_offered (found : m.reserveOfMint mint = .ok r) {slot : ℤ} {x : Decimal}
    (h : o.maxBorrow m mint slot = .ok x) (offered : 0 < x.toRat) {q : ObligationRequest}
    (asks : q.Asks .borrow x mint) : o.OfferedLoan m mint slot r x q := by
  obtain ⟨weight, factor, power, remaining, capped, net, loan⟩ := loan_of_maxBorrow found h
  refine ⟨fun admitted => ?_, fun outside => ?_, fun outside => ?_, fun outside => ?_⟩
  · exact simulate_borrow_overflowOnly found asks admitted loan.factor_eq
      (loan.factor_ne_zero offered)
  · exact simulate_borrow_outside found asks outside
  · rwa [← maxBorrow_ungrouped found outside]
  · exact loan.anywhere offered outside

/-! ## Withdrawals -/

theorem withdrawLtv_outside (outside : ¬ o.Admits r) :
    o.withdrawLtv m r = .ok r.stats.loanToValue := by
  unfold withdrawLtv
  rw [if_neg]
  · rfl
  · rw [groupIncludes_of_not_admits outside]
    exact Bool.false_ne_true

/-- A deposit of an obligation is that of one of its slots. -/
theorem exists_slot_of_deposit {cr br : Option RateMap}
    (valued : value m o.address o.account cr br = .ok o) {address : String} {position : Position}
    (held : o.deposits.find? address = some position) :
    ∃ s ∈ o.account.usedDeposits, ∃ terms,
      s.valued m o.elevationGroup cr = .ok (terms, position) := by
  obtain ⟨-, ds, bs, hds, -, sums⟩ := value_sums valued
  rw [sums.deposits] at held
  obtain ⟨own, listed, same⟩ := List.mem_map.mp (AddressMap.mem_ofList (AddressMap.mem_of_find? held))
  cases same
  obtain ⟨⟨terms, own⟩, entered, rfl⟩ := List.mem_map.mp listed
  obtain ⟨s, used, worked⟩ := exists_of_mem_mapM hds entered
  exact ⟨s, used, terms, worked⟩

/-- What a largest withdrawal is if the least of its bounds is known. -/
theorem Withdrawal.eq_of_least {slot : ℤ} {position : Position} {x ltv power payable : Decimal}
    (fit : o.Withdrawal m slot r position x ltv power payable) {least : ℚ}
    (exact : Representable least) (nonneg : 0 ≤ least)
    (value : min (min position.amount.toRat power.toRat) r.account.liquidity.availableAmount = least)
    (cap : 0 < r.config.depositOutflow.capacity →
      least ≤ r.capRemainder r.config.depositOutflow slot) : x.toRat = least := by
  have bounds : (min (min position.amount power) r.available).toRat = least := by
    rw [Decimal.toRat_min, Decimal.toRat_min, Pool.available, Decimal.toRat_ofInt, value]
  have payable_eq : payable.toRat = least := by
    rw [Pool.withinOutflow_eq fit.payable_eq (bounds ▸ exact) (bounds ▸ cap), bounds]
  rw [fit.amount, Decimal.toRat_max, Decimal.toRat_zero, payable_eq, max_eq_right nonneg]

def WithdrawalBinds (o : Obligation) (r : Reserve) (slot : ℤ) (position : Position)
    (ltv : Decimal) : Prop :=
  ∀ power, o.withdrawPower r ltv position.amount = .ok power →
    power.toRat ≤ position.amount.toRat ∧ power.toRat ≤ r.account.liquidity.availableAmount ∧
      (0 < r.config.depositOutflow.capacity →
        power.toRat ≤ r.capRemainder r.config.depositOutflow slot)

def WithdrawalKeepsDigits (o : Obligation) (r : Reserve) (ltv : Decimal) : Prop :=
  ∀ factor, r.mintFactor = .ok factor →
    KeepsDigits (r.withdrawSteps ltv factor ++ r.dollarSteps factor) o.spareLimit

/-- A withdrawal that the limit alone bounds is worth what the margin leaves, but for six units. -/
theorem Withdrawal.le_worth {slot : ℤ} {position : Position} {x ltv power payable factor : Decimal}
    (fit : o.Withdrawal m slot r position x ltv power payable) (positive : 0 < ltv.toRat)
    (price : 0 < r.oraclePrice.toRat) (within : WithinLimit o.stats)
    (hfactor : r.mintFactor = .ok factor) (nonzero : factor.toRat ≠ 0)
    (binds : o.WithdrawalBinds r slot position ltv) (kept : o.WithdrawalKeepsDigits r ltv) :
    (1 - (6 : ℕ) * ulp) * (o.spareLimit * (995 / 1000 / ltv.toRat)) ≤
      scaleBy (r.dollarSteps factor) x.toRat := by
  obtain ⟨spare_nonneg, -⟩ := spareLimit_mem within
  obtain ⟨own, hown, power_steps⟩ := withdrawPower_steps fit.power_eq positive.ne'
  cases hfactor.symm.trans hown
  obtain ⟨deposited, available, cap⟩ := binds power fit.power_eq
  have out := Pool.withdrawSteps_nonneg (p := r.toPool) positive.le price.le
    (Pool.mintFactor_nonneg hfactor)
  have exact : Representable power.toRat := by
    rw [power_steps]
    exact representable_scaleBy (List.cons_ne_nil _ _) _
  have power_nonneg : 0 ≤ power.toRat := by
    rw [power_steps]
    exact scaleBy_nonneg out spare_nonneg
  have all : x.toRat = power.toRat := by
    refine fit.eq_of_least exact power_nonneg ?_ cap
    rw [min_eq_right deposited, min_eq_left available]
  have there := within_scaleBy (by simp [Pool.withdrawSteps, Pool.dollarSteps])
    (kept factor hfactor)
  rw [Pool.prod_withdrawSteps price.ne' nonzero, scaleBy_append, ← power_steps, ← all] at there
  exact there.ge (mul_nonneg spare_nonneg (div_nonneg (by norm_num) positive.le))

/-- A largest withdrawal from outside the group. The deposit was counted on terms of the group,
    the withdrawal is judged by the loan-to-value of the reserve. -/
structure WithdrawalOutside (o : Obligation) (m : Market) (cr : Option RateMap) (slot : ℤ)
    (r : Reserve) (position : Position) (terms : CollateralTerms) (x : Decimal) : Prop where
  counted : ∃ s ∈ o.account.usedDeposits, s.valued m o.elevationGroup cr = .ok (terms, position)
  judged : o.withdrawLtv m r = .ok r.stats.loanToValue
  safe : ∀ v, r.valueOf x = .ok v → 0 < r.stats.loanToValue.toRat →
    995 / 1000 * terms.loanToValue.toRat ≤ r.stats.loanToValue.toRat →
    o.stats.weightedBorrow.toRat ≤
      o.stats.borrowLimit.toRat - v.toRat * terms.loanToValue.toRat
  breaks : ∀ v, r.valueOf x = .ok v → 0 < r.stats.loanToValue.toRat →
    r.stats.loanToValue.toRat * (1 + 10 * ulp) < 995 / 1000 * terms.loanToValue.toRat →
    o.stats.weightedBorrow.toRat < o.stats.borrowLimit.toRat →
    o.WithdrawalBinds r slot position r.stats.loanToValue →
    o.WithdrawalKeepsDigits r r.stats.loanToValue →
    o.stats.borrowLimit.toRat - v.toRat * terms.loanToValue.toRat < o.stats.weightedBorrow.toRat
  whole : r.stats.loanToValue.toRat = 0 → 0 ≤ position.amount.toRat →
    o.stats.weightedBorrow.toRat < o.stats.borrowLimit.toRat →
    position.amount.toRat ≤ r.account.liquidity.availableAmount →
    (0 < r.config.depositOutflow.capacity →
      position.amount.toRat ≤ r.capRemainder r.config.depositOutflow slot) →
    x.toRat = position.amount.toRat

section
variable {slot : ℤ} {position : Position} {x ltv power payable v : Decimal} {counted : ℚ}

/-- The margin makes up for a loan-to-value that is not too low. -/
theorem Withdrawal.safe_of_margin (fit : o.Withdrawal m slot r position x ltv power payable)
    (positive : 0 < ltv.toRat) (price : 0 < r.oraclePrice.toRat) (within : WithinLimit o.stats)
    (hv : r.valueOf x = .ok v) (ratio : 995 / 1000 * counted ≤ ltv.toRat) :
    o.stats.weightedBorrow.toRat ≤ o.stats.borrowLimit.toRat - v.toRat * counted := by
  obtain ⟨factor, hfactor, nonzero, dollars⟩ := Pool.valueOf_steps hv
  obtain ⟨x_nonneg, -⟩ := fit.le_bounds
  obtain ⟨spare_nonneg, spare_le⟩ := spareLimit_mem within
  have worth_le := fit.worth_le price hfactor nonzero positive within
  have worth_nonneg := scaleBy_nonneg (Pool.dollarSteps_nonneg price.le hfactor) x_nonneg
  rw [← dollars] at worth_le worth_nonneg
  have share_le : 995 / 1000 / ltv.toRat * counted ≤ 1 := by
    rw [div_mul_eq_mul_div, div_le_one positive]
    exact ratio
  have taken_le : v.toRat * counted ≤ o.spareLimit := by
    rcases le_total counted 0 with none | some
    · exact (mul_nonpos_of_nonneg_of_nonpos worth_nonneg none).trans spare_nonneg
    · calc v.toRat * counted
          ≤ o.spareLimit * (995 / 1000 / ltv.toRat) * counted :=
            mul_le_mul_of_nonneg_right worth_le some
        _ = o.spareLimit * (995 / 1000 / ltv.toRat * counted) := mul_assoc _ _ _
        _ ≤ o.spareLimit := mul_le_of_le_one_right spare_nonneg share_le
  linarith

/-- Seven cuts cost seven units, which a ratio that is ten units above one makes up for. -/
theorem lt_of_cuts {room spare share counted worth : ℚ} (positive : 0 < room)
    (spare_low : room - spare ≤ ulp * room)
    (worth_low : (1 - (6 : ℕ) * ulp) * (spare * share) ≤ worth)
    (ratio : 1 + 10 * ulp < share * counted) (nonneg : 0 ≤ counted) : room < worth * counted := by
  rw [ulp_eq] at spare_low worth_low ratio
  push_cast at worth_low
  have spare_ge : room * (1 - 1 / 10 ^ 39) ≤ spare := by linarith
  calc room < room * (1 - 1 / 10 ^ 39) * (1 - 6 * (1 / 10 ^ 39)) * (1 + 10 * (1 / 10 ^ 39)) := by
        linarith
    _ ≤ spare * (1 - 6 * (1 / 10 ^ 39)) * (share * counted) := by
        refine mul_le_mul (mul_le_mul_of_nonneg_right spare_ge (by norm_num)) ratio.le
          (by norm_num) (mul_nonneg ?_ (by norm_num))
        exact (mul_nonneg positive.le (by norm_num)).trans spare_ge
    _ = (1 - 6 * (1 / 10 ^ 39)) * (spare * share) * counted := by ring
    _ ≤ worth * counted := mul_le_mul_of_nonneg_right worth_low nonneg

/-- Beyond the margin, a withdrawal that only the limit bounds takes more than is spare. -/
theorem Withdrawal.breaks_of_ratio (valued : o.Valued)
    (fit : o.Withdrawal m slot r position x ltv power payable)
    (positive : 0 < ltv.toRat) (price : 0 < r.oraclePrice.toRat)
    (spare : o.stats.weightedBorrow.toRat < o.stats.borrowLimit.toRat)
    (hv : r.valueOf x = .ok v) (ratio : ltv.toRat * (1 + 10 * ulp) < 995 / 1000 * counted)
    (binds : o.WithdrawalBinds r slot position ltv) (kept : o.WithdrawalKeepsDigits r ltv) :
    o.stats.borrowLimit.toRat - v.toRat * counted < o.stats.weightedBorrow.toRat := by
  obtain ⟨factor, hfactor, nonzero, dollars⟩ := Pool.valueOf_steps hv
  have within : WithinLimit o.stats := spare.le
  have headroom := sub_pos.mpr spare
  have spare_low := valued.sub_spareLimit_le within
  have worth_ge := fit.le_worth positive price within hfactor nonzero binds kept
  rw [← dollars] at worth_ge
  have share_gt : 1 + 10 * ulp < 995 / 1000 / ltv.toRat * counted := by
    rw [div_mul_eq_mul_div, lt_div_iff₀ positive, mul_comm]
    exact ratio
  have counted_nonneg : 0 ≤ counted := by
    have := mul_pos positive (by rw [ulp_eq]; norm_num : 0 < 1 + 10 * ulp)
    linarith
  have := lt_of_cuts headroom spare_low worth_ge share_gt counted_nonneg
  linarith

end

/-- Deposits outside the group are withdrawn at another loan-to-value than they count with. -/
theorem maxWithdraw_outside {cr br : Option RateMap}
    (valued : value m o.address o.account cr br = .ok o)
    (found : m.reserveOfMint mint = .ok r) (outside : ¬ o.Admits r)
    (price : 0 < r.oraclePrice.toRat) (debt : 0 < o.stats.weightedBorrow.toRat)
    (within : WithinLimit o.stats) {slot : ℤ} {x : Decimal}
    (h : o.maxWithdraw m mint slot = .ok x) :
    ∃ position terms, o.deposits.find? r.address = some position ∧
      m.collateralTerms o.elevationGroup r = .ok terms ∧
      o.WithdrawalOutside m cr slot r position terms x := by
  have own_valued : o.Valued := ⟨m, cr, br, valued⟩
  obtain ⟨position, held, cases⟩ := maxWithdraw_cases found h
  obtain ⟨s, used, terms, worked⟩ := exists_slot_of_deposit valued held
  obtain ⟨own, rate, factor, worth⟩ := s.worth worked
  have grouped : o.elevationGroup ≠ 0 := fun none => outside (.inl none)
  have judged := withdrawLtv_outside (m := m) outside
  have same_terms : m.collateralTerms o.elevationGroup r = .ok terms := by
    rw [m.collateralTerms_of_grouped grouped r own]
    exact worth.terms_eq
  refine ⟨position, terms, held, same_terms, ?_⟩
  rcases cases with ⟨none, -⟩ | ⟨-, full, rfl⟩ | ⟨-, -, ltv, power, payable, fit⟩
  · exact absurd none debt.ne'
  · -- at the limit nothing is offered
    refine ⟨⟨s, used, worked⟩, judged, fun v hv _ _ => ?_,
      fun _ _ _ _ spare => absurd full (not_le.mpr spare),
      fun _ _ spare => absurd full (not_le.mpr spare)⟩
    obtain ⟨_, -, -, dollars⟩ := Pool.valueOf_steps hv
    rw [Decimal.toRat_zero, scaleBy_zero] at dollars
    rw [dollars, zero_mul, sub_zero]
    exact within
  · cases judged.symm.trans fit.ltv_eq
    refine ⟨⟨s, used, worked⟩, judged, fun v hv positive ratio => ?_,
      fun v hv positive ratio spare binds kept => ?_, fun none nonneg _ available cap => ?_⟩
    · exact fit.safe_of_margin positive price within hv ratio
    · exact fit.breaks_of_ratio own_valued positive price spare hv ratio binds kept
    · have power_eq := fit.power_eq
      unfold withdrawPower at power_eq
      rw [if_pos ((Decimal.isZero_iff _).mpr none)] at power_eq
      cases power_eq
      refine fit.eq_of_least ?_ nonneg ?_ cap
      · exact s.representable_amount worked
      · rw [min_self, min_eq_left available]

end Obligation

/-! ## Samples -/

namespace Sample

def stocked (address mint : String) (groups : List Int) : Reserve :=
  let r := idle address mint 6 1
  { r with account := { r.account with
      liquidity := { r.account.liquidity with
        availableAmount := 1000000000, cumulativeBorrowRateLimbs := [scale, 0, 0, 0] }
      config := { r.account.config with elevationGroups := groups } } }

/-- The first group lends 90 percent, the reserves themselves 80; the vault is outside. -/
def groupMarket : Market where
  address := "market"
  account := { elevationGroups := [{ id := 1, ltvPct := 90, liquidationThresholdPct := 95 }] }
  reserves := ⟨[("pool", stocked "pool" "token" [1]), ("vault", stocked "vault" "coin" [])]⟩

def member : Obligation where
  address := "obligation"
  account := {
    market := "market"
    owner := "owner"
    elevationGroup := 1
    deposits := [{ reserve := "vault", depositedAmount := 4000000 }]
    borrows := [
      { reserve := "pool", cumulativeBorrowRateLimbs := [scale, 0, 0, 0],
        rawBorrowed := 1000000 * scale }] }
  deposits := ⟨[("vault", ⟨"vault", "coin", ⟨false, 4, 6⟩, 4⟩)]⟩
  borrows := ⟨[("pool", ⟨"pool", "token", ⟨false, 1, 6⟩, 1⟩)]⟩
  stats := {
    totalDeposit := 4
    totalBorrow := 1
    weightedBorrow := 1
    borrowLimit := ⟨false, 36, -1⟩
    liquidationLimit := ⟨false, 38, -1⟩
    borrowUtilization := ⟨false, 2777777777777777777777777777777777777777, -40⟩
    netValue := 3
    loanToValue := ⟨false, 25, -2⟩
    liquidationLtv := ⟨false, 95, -2⟩
    leverage := ⟨false, 1333333333333333333333333333333333333333, -39⟩ }

end Sample

namespace Obligation

theorem outside_sample : ¬ Sample.member.Admits (Sample.stocked "vault" "coin" []) := by
  rintro (none | listed)
  · exact absurd none (by decide)
  · exact absurd listed (by decide)

/-- The vault offers the member a thousand base units, and no simulation grants them. -/
theorem maxBorrow_offered_sample :
    Sample.member.maxBorrow Sample.groupMarket "coin" 0 = .ok ⟨false, 1, 3⟩ ∧
    0 < (⟨false, 1, 3⟩ : Decimal).toRat ∧
    Sample.member.simulate Sample.groupMarket (Sample.request "borrow" ⟨false, 1, 3⟩ "coin") =
      .error (.groupDowngrade "borrow from") ∧
    Sample.member.ungrouped.maxBorrow Sample.groupMarket "coin" 0 = .ok ⟨false, 1, 3⟩ := by
  have computed : Sample.member.maxBorrow Sample.groupMarket "coin" 0 = .ok ⟨false, 1, 3⟩ := by
    decide +kernel
  have offered : 0 < (⟨false, 1, 3⟩ : Decimal).toRat := by decide +kernel
  have facts := maxBorrow_offered (show Sample.groupMarket.reserveOfMint "coin" =
    .ok (Sample.stocked "vault" "coin" []) by decide +kernel) computed offered
    (q := Sample.request "borrow" ⟨false, 1, 3⟩ "coin") ⟨by decide, rfl, rfl⟩
  exact ⟨computed, offered, facts.rejected outside_sample, facts.ungrouped outside_sample⟩

/-- The vault lends 80 percent and the group 90: what can be withdrawn of the vault takes 2.91
    of the limit, of which 2.6 is spare. -/
theorem maxWithdraw_outside_sample : ∃ x v counted,
    Sample.member.maxWithdraw Sample.groupMarket "coin" 0 = .ok x ∧
    (Sample.stocked "vault" "coin" []).valueOf x = .ok v ∧
    Sample.groupMarket.collateralTerms 1 (Sample.stocked "vault" "coin" []) = .ok counted ∧
    Sample.member.stats.borrowLimit.toRat - v.toRat * counted.loanToValue.toRat <
      Sample.member.stats.weightedBorrow.toRat := by
  have computed : Sample.member.maxWithdraw Sample.groupMarket "coin" 0 =
      .ok ⟨false, 323375, 1⟩ := by decide +kernel
  have worth : (Sample.stocked "vault" "coin" []).valueOf ⟨false, 323375, 1⟩ =
      .ok ⟨false, 323375, -5⟩ := by decide +kernel
  have spare : Sample.member.stats.weightedBorrow.toRat < Sample.member.stats.borrowLimit.toRat := by
    decide +kernel
  obtain ⟨position, terms, held, terms_eq, facts⟩ := maxWithdraw_outside
    (show value Sample.groupMarket "obligation" Sample.member.account none none =
      .ok Sample.member by decide +kernel)
    (show Sample.groupMarket.reserveOfMint "coin" = .ok (Sample.stocked "vault" "coin" []) by
      decide +kernel) outside_sample (by decide +kernel) (by decide +kernel) spare.le computed
  cases (show Sample.member.deposits.find? "vault" = some ⟨"vault", "coin", ⟨false, 4, 6⟩, 4⟩ by
    decide).symm.trans held
  cases (show Sample.groupMarket.collateralTerms 1 (Sample.stocked "vault" "coin" []) =
    .ok ⟨⟨false, 9, -1⟩, ⟨false, 95, -2⟩⟩ by decide +kernel).symm.trans terms_eq
  refine ⟨_, _, _, computed, worth, terms_eq, facts.breaks _ worth (by decide +kernel) ?_ spare ?_ ?_⟩
  · rw [ulp_eq]
    decide +kernel
  · intro power hpower
    cases (show Sample.member.withdrawPower (Sample.stocked "vault" "coin" [])
      (Sample.stocked "vault" "coin" []).stats.loanToValue ⟨false, 4, 6⟩ =
        .ok ⟨false, 323375, 1⟩ by decide +kernel).symm.trans hpower
    exact ⟨by decide +kernel, by decide +kernel, fun limited => absurd limited (by decide)⟩
  · intro factor hfactor
    cases (show (Sample.stocked "vault" "coin" []).mintFactor = .ok ⟨false, 1, 6⟩ by
      decide +kernel).symm.trans hfactor
    have low : (10 : ℚ) ^ (0 : ℤ) ≤ |Sample.member.spareLimit| := by
      refine le_abs.mpr (.inl ((representable_zpow (by decide)).le_truncate ?_))
      decide +kernel
    refine keepsDigits_of_le low (d := 6) ?_ (by norm_num) (by decide)
    decide +kernel

end Obligation

end Lending
