/-
  Lending.Proofs.Market.BorrowLimit — the most that can be borrowed keeps to every limit.

  `maxBorrowAgainst` cuts a loan by one limit after the other. No later cut undoes an earlier
  one, and what is left is at most what each limit leaves, or nothing: `lendable_le` up to the
  borrow fee, and `Settled` for the ceiling and the group after it.

  The utilization ceiling is met exactly. The room below it is worked out from a utilization
  that was cut, so the largest loan may be a little too large; but the utilization after it is
  cut as well, and that makes up for it (`quotient_le_of_room`). So borrowing this much never
  takes the utilization above the ceiling (`exists_utilizationAfter_le`).
-/
import Lending.Market.BorrowLimit
import Lending.Obligation.Sample
import Lending.Proofs.Reserve.Limits
import Lending.Proofs.Reserve.Payout

namespace Lending

open Outcome Truncation

namespace Reserve

/-! ## The limits in turn -/

section
variable {r : Reserve} {slot : ℤ} {lent debt : Decimal}

/-- What liquidity, borrow limit and outflow leave, less the fee. -/
theorem lendable_le (opened : r.toPool.openReserve = .ok r) (owed : r.borrowed = .ok debt)
    (h : r.lendable slot = .ok lent) :
    lent.toRat ≤ max 0 (r.account.liquidity.availableAmount : ℚ) ∧
      lent.toRat ≤ max 0 (r.config.borrowLimit - debt.toRat) ∧
      (0 < r.config.debtOutflow.capacity →
        lent.toRat ≤ max 0 (r.capRemainder r.config.debtOutflow slot)) := by
  unfold lendable at h
  rw [(Pool.settings_of_openReserve opened).borrowLimit, owed] at h
  simp only [bind_eq_ok_iff] at h
  obtain ⟨_, ⟨⟩, remaining, left, capped, let_out, net⟩ := h
  have fee := Pool.netOfBorrowFee_le net
  obtain ⟨capped_le, capped_cap⟩ := Pool.withinOutflow_bounds let_out
  rw [Decimal.toRat_min, sub_value left, Pool.available, Decimal.toRat_ofInt,
    Decimal.toRat_ofInt] at capped_le
  have cut_le {room : ℚ} (le : capped.toRat ≤ max 0 room) : lent.toRat ≤ max 0 room :=
    fee.trans (max_le (le_max_left _ _) le)
  refine ⟨cut_le ?_, cut_le ?_, fun limited => cut_le ?_⟩
  · exact (capped_le.trans (min_le_left _ _)).trans (le_max_right _ _)
  · exact (capped_le.trans (min_le_right _ _)).trans (truncate_le_max _)
  · exact (capped_cap limited).trans (truncate_le_max _)

/-- What the ceiling does: nothing without one, and above it nothing is lent. -/
theorem withinCeiling_cases (f : r.Figures) {amount : Decimal} {kept : Option Decimal}
    (h : r.withinCeiling amount = .ok kept) :
    ∃ ceiling, shareOfPercent r.config.utilizationCeilingPct = .ok ceiling ∧
      (ceiling.toRat ≤ 0 ∧ kept = some amount ∨
        0 < ceiling.toRat ∧ ∃ u, r.utilization = .ok u ∧
          (ceiling.toRat < u.toRat ∧ kept = none ∨
            u.toRat ≤ ceiling.toRat ∧ ∃ y, kept = some y ∧ y.toRat = min amount.toRat
              (truncate (truncate (ceiling.toRat - u.toRat) * f.supply.toRat)))) := by
  unfold withinCeiling at h
  obtain ⟨ceiling, share, h⟩ := bind_eq_ok_iff.mp h
  refine ⟨ceiling, share, ?_⟩
  simp only [Decimal.lt_iff, Decimal.toRat_zero] at h
  split at h
  · rename_i limited
    obtain ⟨u, used, h⟩ := bind_eq_ok_iff.mp h
    refine .inr ⟨limited, u, used, ?_⟩
    split at h
    · rename_i exceeded
      cases h
      exact .inl ⟨exceeded, rfl⟩
    · rename_i below
      rw [f.totalSupply_eq] at h
      simp only [bind_eq_ok_iff] at h
      obtain ⟨room, hroom, _, ⟨⟩, most, hmost, h⟩ := h
      cases h
      refine .inr ⟨not_lt.mp below, _, rfl, ?_⟩
      rw [Decimal.toRat_min, mul_value hmost, sub_value hroom]
  · rename_i unlimited
    cases h
    exact .inl ⟨not_lt.mp unlimited, rfl⟩

/-- At most what the debt limit of a group has left; without one, what the limit outside of
    groups has left. -/
structure WithinGroup (r : Reserve) (group : ℤ) (x : Decimal) : Prop where
  inside : group ≠ 0 ∧ r.elevationGroups.contains group → ∀ limit borrowed,
    r.groupBorrowLimit (group - 1) = .ok limit → r.groupBorrowed (group - 1) = .ok borrowed →
    x.toRat ≤ max 0 (min (limit.toRat - borrowed.toRat) maxWord)
  outside : ¬ (group ≠ 0 ∧ r.elevationGroups.contains group) →
    x.toRat ≤ max 0 (r.config.borrowLimitOutsideGroups - r.account.borrowedOutsideGroups : ℚ)

theorem withinGroup_of_le {group : ℤ} {room x : Decimal} (h : r.groupRemainder group = .ok room)
    (le : x.toRat ≤ max 0 room.toRat) : r.WithinGroup group x := by
  unfold groupRemainder at h
  constructor
  · intro listed limit borrowed hlimit hborrowed
    rw [if_pos listed, hlimit, hborrowed] at h
    obtain ⟨_, ⟨⟩, h⟩ := bind_eq_ok_iff.mp h
    obtain ⟨_, ⟨⟩, h⟩ := bind_eq_ok_iff.mp h
    obtain ⟨left, hleft, h⟩ := bind_eq_ok_iff.mp h
    cases h
    rw [Decimal.toRat_max, Decimal.toRat_min, Decimal.toRat_zero, Decimal.toRat_ofInt,
      sub_value hleft, ← max_assoc, max_self] at le
    refine le.trans (max_le (le_max_left _ _) ?_)
    rw [max_min_distrib_left]
    exact min_le_min (truncate_le_max _) (le_max_right _ _)
  · intro unlisted
    rw [if_neg unlisted] at h
    rw [sub_value h, Pool.borrowLimitOutsideGroups, Pool.borrowedOutsideGroups,
      Decimal.toRat_ofInt, Decimal.toRat_ofInt] at le
    exact le.trans (max_le (le_max_left _ _) (truncate_le_max _))

inductive Settled (r : Reserve) (group : ℤ) (lent x : Decimal) : Prop where
  | refused (within : r.withinCeiling lent = .ok none) (nothing : x = 0)
  | granted (amount room : Decimal) (within : r.withinCeiling lent = .ok (some amount))
      (left : r.groupRemainder group = .ok room)
      (value : x.toRat = max 0 (min amount.toRat room.toRat))

theorem settled_of_maxBorrowAgainst {m : Market} {collateral : Reserve} {x : Decimal}
    (h : r.maxBorrowAgainst m collateral slot = .ok x) :
    ∃ group lent, m.bestGroupFor r collateral = .ok group ∧ r.lendable slot = .ok lent ∧
      r.Settled group lent x := by
  unfold maxBorrowAgainst at h
  obtain ⟨group, selected, h⟩ := bind_eq_ok_iff.mp h
  obtain ⟨lent, lends, h⟩ := bind_eq_ok_iff.mp h
  obtain ⟨kept, within, h⟩ := bind_eq_ok_iff.mp h
  refine ⟨group, lent, selected, lends, ?_⟩
  cases kept with
  | none =>
    cases h
    exact .refused within rfl
  | some amount =>
    obtain ⟨room, left, h⟩ := bind_eq_ok_iff.mp h
    cases h
    refine .granted amount room within left ?_
    rw [Decimal.toRat_max, Decimal.toRat_min, Decimal.toRat_zero]

namespace Settled

variable {group : ℤ} {x : Decimal} (settled : r.Settled group lent x)
include settled

theorem nonneg : 0 ≤ x.toRat := by
  cases settled with
  | refused _ nothing => rw [nothing, Decimal.toRat_zero]
  | granted amount room _ _ value =>
    rw [value]
    exact le_max_left _ _

theorem exists_ceiling :
    ∃ ceiling, shareOfPercent r.config.utilizationCeilingPct = .ok ceiling := by
  cases settled with
  | refused within _ =>
    obtain ⟨ceiling, share, -⟩ := bind_eq_ok_iff.mp within
    exact ⟨ceiling, share⟩
  | granted amount room within _ _ =>
    obtain ⟨ceiling, share, -⟩ := bind_eq_ok_iff.mp within
    exact ⟨ceiling, share⟩

theorem withinGroup : r.WithinGroup group x := by
  cases settled with
  | refused _ nothing =>
    subst nothing
    constructor <;> intros <;> rw [Decimal.toRat_zero] <;> exact le_max_left _ _
  | granted amount room _ left value =>
    exact withinGroup_of_le left (value.trans_le (max_le_max_left _ (min_le_right _ _)))

theorem le_lent (f : r.Figures) : x.toRat ≤ max 0 lent.toRat := by
  cases settled with
  | refused _ nothing =>
    rw [nothing, Decimal.toRat_zero]
    exact le_max_left _ _
  | granted amount room within _ value =>
    rw [value]
    refine max_le_max_left _ ((min_le_left _ _).trans ?_)
    obtain ⟨ceiling, -, ⟨-, same⟩ | ⟨-, u, -, ⟨-, none⟩ | ⟨-, y, same, y_value⟩⟩⟩ :=
      withinCeiling_cases f within
    · cases same
      exact le_rfl
    · cases none
    · cases same
      exact y_value.trans_le (min_le_left _ _)

/-- Under a ceiling, a loan fits in the room below it, or is none. -/
theorem room (f : r.Figures) {ceiling : Decimal}
    (share : shareOfPercent r.config.utilizationCeilingPct = .ok ceiling)
    (limited : 0 < ceiling.toRat) {u : Decimal} (used : r.utilization = .ok u) :
    (ceiling.toRat < u.toRat → x = 0) ∧
      (u.toRat ≤ ceiling.toRat → 0 ≤ f.supply.toRat →
        x.toRat ≤ truncate (truncate (ceiling.toRat - u.toRat) * f.supply.toRat)) := by
  have step {kept : Option Decimal} (within : r.withinCeiling lent = .ok kept) :
      ceiling.toRat < u.toRat ∧ kept = none ∨
        u.toRat ≤ ceiling.toRat ∧ ∃ y, kept = some y ∧ y.toRat = min lent.toRat
          (truncate (truncate (ceiling.toRat - u.toRat) * f.supply.toRat)) := by
    obtain ⟨_, again, ⟨unlimited, -⟩ | ⟨-, _, same, cases⟩⟩ := withinCeiling_cases f within
    · cases share.symm.trans again
      exact absurd limited unlimited.not_gt
    · cases share.symm.trans again
      cases used.symm.trans same
      exact cases
  cases settled with
  | refused within nothing =>
    refine ⟨fun _ => nothing, fun below _ => ?_⟩
    obtain ⟨exceeded, -⟩ | ⟨-, y, some, -⟩ := step within
    · exact absurd exceeded below.not_gt
    · cases some
  | granted amount room within _ value =>
    obtain ⟨-, none⟩ | ⟨below, y, same, y_value⟩ := step within
    · cases none
    · cases same
      refine ⟨fun exceeded => absurd exceeded below.not_gt, fun _ stocked => ?_⟩
      rw [value]
      have room_nonneg :=
        truncate_nonneg (mul_nonneg (truncate_nonneg (sub_nonneg.mpr below)) stocked)
      exact max_le room_nonneg ((min_le_left _ _).trans (y_value.trans_le (min_le_right _ _)))

end Settled

end

end Reserve

/-! ## The ceiling -/

/-- A ceiling of whole percents is a figure, as far as it is one: nothing lies between them. -/
theorem shareOfPercent_ceiling {percent : ℤ} (positive : 0 < percent) {ceiling : Decimal}
    (share : shareOfPercent percent = .ok ceiling) :
    0 < ceiling.toRat ∧ -1000038 < grid ceiling.toRat ∧ ceiling.toRat ≤ percent / 100 ∧
      ∀ u, Representable u → (u ≤ (percent : ℚ) / 100 ↔ u ≤ ceiling.toRat) := by
  have value := shareOfPercent_value share
  have whole : (1 : ℚ) ≤ percent := by exact_mod_cast positive
  have exact_nonneg : (0 : ℚ) ≤ percent / 100 := by positivity
  have low : (10 : ℚ) ^ (-2 : ℤ) ≤ ceiling.toRat := by
    rw [value]
    refine (representable_zpow (by decide)).le_truncate ?_
    norm_num
    linarith
  have above : 0 < ceiling.toRat := lt_of_lt_of_le (by positivity) low
  have le : ceiling.toRat ≤ percent / 100 := by
    rw [value]
    exact truncate_le exact_nonneg
  refine ⟨above, ?_, le, fun u exact => ⟨fun h => ?_, fun h => h.trans le⟩⟩
  · have leading := (Int.zpow_le_iff_le_log (b := 10) (by decide) above).mp low
    rw [grid_eq, abs_of_pos above]
    omega
  · rw [value]
    exact exact.le_truncate h

/-- A loan that fits in the room below a ceiling keeps the cut quotient below it, although the
    room was worked out from a quotient that was cut. -/
theorem quotient_le_of_room {debt supply x ceiling : ℚ} (exact : Representable ceiling)
    (positive : 0 < ceiling) (normal : -1000038 < grid ceiling) (stocked : 0 < supply)
    (owed : 0 ≤ debt) (nonneg : 0 ≤ x) (below : truncate (debt / supply) ≤ ceiling)
    (room : x ≤ truncate (truncate (ceiling - truncate (debt / supply)) * supply)) :
    truncate (truncate (debt + x) / supply) ≤ ceiling := by
  have left := sub_nonneg.mpr below
  have share : x / supply ≤ ceiling - truncate (debt / supply) := by
    rw [div_le_iff₀ stocked]
    refine (room.trans (truncate_le (mul_nonneg (truncate_nonneg left) stocked.le))).trans ?_
    exact mul_le_mul_of_nonneg_right (truncate_le left) stocked.le
  calc truncate (truncate (debt + x) / supply)
      ≤ truncate ((debt + x) / supply) :=
        truncate_mono (div_le_div_of_nonneg_right (truncate_le (add_nonneg owed nonneg))
          stocked.le)
    _ = truncate (debt / supply + x / supply) := by rw [add_div]
    _ ≤ ceiling := truncate_add_le_of_room exact positive normal (div_nonneg owed stocked.le)
        (div_nonneg nonneg stocked.le) share

/-- What is available can be lent out: debt and loan together are no overflow. -/
theorem Pool.exists_debtAfter {p : Pool} (f : p.Figures) {x : Decimal} (nonneg : 0 ≤ x.toRat)
    (available : x.toRat ≤ max 0 (p.account.liquidity.availableAmount : ℚ)) :
    ∃ debt, (f.debt + x : Outcome Decimal) = .ok debt := by
  have size := (ScaledFraction.decode_result f.borrowed_eq).size
  rw [abs_of_nonneg f.debt_nonneg] at size
  have total : f.debt.toRat + x.toRat < Decimal.limit := by
    rcases le_max_iff.mp available with none | some
    · linarith
    · have supplied := f.totalSupply_eq
      obtain ⟨_, owed, supplied⟩ := bind_eq_ok_iff.mp supplied
      cases f.borrowed_eq.symm.trans owed
      obtain ⟨gross, hgross, -⟩ := bind_eq_ok_iff.mp supplied
      have gross_size := (le_abs_self _).trans_lt (add_result hgross).size
      rw [add_value hgross, Pool.available, Decimal.toRat_ofInt] at gross_size
      linarith [Decimal.lt_limit_of_truncate_lt gross_size]
  refine exists_add_of_sum ?_ ?_ ?_
  · rwa [abs_of_nonneg f.debt_nonneg]
  · rw [abs_of_nonneg nonneg]
    linarith [f.debt_nonneg]
  · rwa [abs_of_nonneg (add_nonneg f.debt_nonneg nonneg)]

/-- Borrowing what fits in the room below a ceiling keeps the utilization below it. -/
theorem Pool.exists_utilizationAfter_le {p : Pool} (f : p.Figures) {x : Decimal} {ceiling : ℚ}
    (exact : Representable ceiling) (positive : 0 < ceiling) (normal : -1000038 < grid ceiling)
    (size : ceiling < Decimal.limit) (stocked : 0 < f.supply.toRat) (nonneg : 0 ≤ x.toRat)
    (available : x.toRat ≤ max 0 (p.account.liquidity.availableAmount : ℚ))
    (below : truncate (f.debt.toRat / f.supply.toRat) ≤ ceiling)
    (room : x.toRat ≤ truncate (truncate (ceiling - truncate (f.debt.toRat / f.supply.toRat))
      * f.supply.toRat)) {q : ReserveRequest} (resolved : q.action.resolve = .ok .borrow)
    (amount : q.amount = x) (not_later : q.slot ≤ p.account.lastUpdate.slot) :
    ∃ v, p.utilizationAfter q = .ok v ∧ v.toRat ≤ ceiling := by
  obtain ⟨debt, grown⟩ := exists_debtAfter f nonneg available
  have quotient :=
    quotient_le_of_room exact positive normal stocked f.debt_nonneg nonneg below room
  have owed : 0 ≤ debt.toRat := by
    rw [add_value grown]
    exact truncate_nonneg (add_nonneg f.debt_nonneg nonneg)
  rw [← add_value grown] at quotient
  obtain ⟨v, hv⟩ : ∃ v, (debt / f.supply : Outcome Decimal) = .ok v := by
    refine exists_div stocked.ne' ?_
    rw [abs_of_nonneg (div_nonneg owed stocked.le)]
    exact Decimal.lt_limit_of_truncate_lt (quotient.trans_lt size)
  refine ⟨v, ?_, (div_value hv).2.trans_le quotient⟩
  unfold utilizationAfter debtAndSupplyAfter
  rw [resolved, debtAndSupplyAt_of_not_later not_later f, amount]
  show (DebtAndSupply.after ⟨f.debt, f.supply⟩ .borrow x q.outflow >>= _) = _
  unfold DebtAndSupply.after
  rw [grown]
  show DebtAndSupply.utilization ⟨debt, f.supply⟩ = _
  unfold DebtAndSupply.utilization
  rw [if_neg (mt (Decimal.isZero_iff _).mp stocked.ne')]
  exact hv

namespace Reserve

/-! ## The most that can be borrowed -/

/-- A loan against a collateral that keeps to every limit of the reserve. -/
structure WithinLimits (r : Reserve) (m : Market) (collateral : Reserve) (slot : ℤ) (x : Decimal) :
    Prop where
  nonneg : 0 ≤ x.toRat
  available : x.toRat ≤ max 0 (r.account.liquidity.availableAmount : ℚ)
  borrowLimit : ∃ debt, r.borrowed = .ok debt ∧
    x.toRat ≤ max 0 (r.config.borrowLimit - debt.toRat)
  outflow : 0 < r.config.debtOutflow.capacity →
    x.toRat ≤ max 0 (r.capRemainder r.config.debtOutflow slot)
  group : ∃ group, m.bestGroupFor r collateral = .ok group ∧ r.WithinGroup group x
  /-- Below the ceiling, the loan does not take the utilization above it. -/
  ceiling : 0 < r.config.utilizationCeilingPct → ∃ supply u, r.totalSupply = .ok supply ∧
    r.utilization = .ok u ∧ (0 < supply.toRat →
      u.toRat ≤ (r.config.utilizationCeilingPct : ℚ) / 100 →
      ∀ q : ReserveRequest, q.action.resolve = .ok .borrow → q.amount = x →
        q.slot ≤ r.account.lastUpdate.slot → ∃ v, r.utilizationAfter q = .ok v ∧
          v.toRat ≤ (r.config.utilizationCeilingPct : ℚ) / 100)
  /-- Above the ceiling nothing is lent. -/
  exceeded : 0 < r.config.utilizationCeilingPct → ∀ u, r.utilization = .ok u →
    (r.config.utilizationCeilingPct : ℚ) / 100 < u.toRat → x = 0

/-- The most that can be borrowed against a collateral keeps to every limit. -/
theorem maxBorrowAgainst_within {r : Reserve} (opened : r.toPool.openReserve = .ok r) {m : Market}
    {collateral : Reserve} {slot : ℤ} {x : Decimal}
    (h : r.maxBorrowAgainst m collateral slot = .ok x) : r.WithinLimits m collateral slot x := by
  obtain ⟨f⟩ := Pool.figures_of_openReserve opened
  obtain ⟨group, lent, selected, lends, settled⟩ := settled_of_maxBorrowAgainst h
  obtain ⟨by_available, by_limit, by_outflow⟩ := lendable_le opened f.borrowed_eq lends
  obtain ⟨u, used⟩ := f.exists_utilization
  have le_lent {room : ℚ} (le : lent.toRat ≤ max 0 room) : x.toRat ≤ max 0 room :=
    (settled.le_lent f).trans (max_le (le_max_left _ _) le)
  obtain ⟨ceiling, share⟩ := settled.exists_ceiling
  have room := settled.room f share
  refine ⟨settled.nonneg, le_lent by_available, ⟨f.debt, f.borrowed_eq, le_lent by_limit⟩,
    fun limited => le_lent (by_outflow limited), ⟨group, selected, settled.withinGroup⟩,
    fun limited => ⟨f.supply, u, f.totalSupply_eq, used, ?_⟩, fun limited u' again above => ?_⟩
  · intro stocked below q resolved amount not_later
    obtain ⟨positive, normal, ceiling_le, same⟩ := shareOfPercent_ceiling limited share
    have u_value := f.utilization_value stocked used
    have u_exact : Representable u.toRat := by
      rw [u_value]
      exact representable_truncate _
    have below := (same u.toRat u_exact).mp below
    have fits := (room positive used).2 below stocked.le
    rw [u_value] at below fits
    have ceiling_result := div_result share
    obtain ⟨v, after, le⟩ := Pool.exists_utilizationAfter_le f ceiling_result.exact positive normal
      ((le_abs_self _).trans_lt ceiling_result.size) stocked settled.nonneg
      (le_lent by_available) below fits resolved amount not_later
    exact ⟨v, after, le.trans ceiling_le⟩
  · obtain ⟨positive, -, ceiling_le, -⟩ := shareOfPercent_ceiling limited share
    exact (room positive again).1 (ceiling_le.trans_lt above)

end Reserve

namespace Sample

def limitedPool : Pool :=
  { pool with account := { account with config := { account.config with
      borrowLimit := 1000000000000, utilizationCeilingPct := 76 } } }

def limited : Reserve :=
  { limitedPool with stats := { stats with borrowLimit := Decimal.ofInt 1000000000000 } }

def largestLoan : Decimal := ⟨false, 3999848000000000000000000000000000000007, -32⟩

end Sample

namespace Reserve

open Sample in
/-- The largest loan is more than fits below 76 percent, yet the utilization after it is
    exactly that. -/
theorem maxBorrowAgainst_within_sample :
    limited.maxBorrowAgainst market limited 1000 = .ok largestLoan ∧
      limited.utilizationAfter (sized "borrow" largestLoan none) = .ok ⟨false, 76, -2⟩ ∧
      (⟨false, 76, -2⟩ : Decimal).toRat ≤ 76 / 100 := by
  have opened : limited.toPool.openReserve = .ok limited := by decide +kernel
  have most : limited.maxBorrowAgainst market limited 1000 = .ok largestLoan := by decide +kernel
  have supplied : limited.totalSupply = .ok ⟨false, 3999998, 3⟩ := by decide +kernel
  have used : limited.utilization = .ok ⟨false, 7500003750001875000937500468750234375117, -40⟩ := by
    decide +kernel
  have met : limited.utilizationAfter (sized "borrow" largestLoan none) =
      .ok ⟨false, 76, -2⟩ := by decide +kernel
  have within : limited.WithinLimits market limited 1000 largestLoan :=
    maxBorrowAgainst_within opened most
  obtain ⟨supply, u, hsupply, hu, keeps⟩ := within.ceiling (by decide)
  cases supplied.symm.trans hsupply
  cases used.symm.trans hu
  obtain ⟨v, after, le⟩ := keeps (by decide +kernel) (by decide +kernel)
    (sized "borrow" largestLoan none) rfl rfl (by decide)
  cases met.symm.trans after
  exact ⟨most, met, le⟩

end Reserve

end Lending
