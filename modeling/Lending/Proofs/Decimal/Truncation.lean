/-
  Lending.Proofs.Decimal.Truncation — what money figures keep of an exact value.

  `truncate` cuts a rational toward zero to 40 digits, and near zero to the finest grid. The
  figures that survive it unchanged are the `Representable` ones, and `truncate v` is the one
  next to `v` on the side of zero (`representable_truncate`, `Representable.le_truncate`,
  `Representable.truncate_le`). From that view alone follow:
  - `truncate_mono`: rounding never reverses an order.
  - `truncate_eq_of_gap`: values between the same two figures are cut to the same one.

  The room that a cut value leaves below a figure can be filled up: the sum of what fills it and
  the uncut value is cut to no more than the figure (`truncate_add_le_of_room`).

  How much is lost: less than a unit of the 40th digit of what is in the normal range
  (`abs_sub_truncate_le`). A value below that range that is not on the finest grid is an
  `Underflows`; sums of figures are never one (`OnGrid.not_underflows`).

  An amount less a cut share of it is a difference, and cutting the share could favour the smaller
  of two amounts. It does not: amounts lie on the grid of their shares, on which a gain of less
  than a step is none (`sub_truncate_share_mono`). Only of the larger amount must that be so
  (`truncate_sub_share_mono`).
-/
import Lending.Proofs.Decimal.Value

namespace Lending.Truncation

def grid (v : ℚ) : ℤ := money.gridExponent (Int.log 10 |v|)

def truncate (v : ℚ) : ℚ := SignType.sign v * (⌊|v| / 10 ^ grid v⌋ * 10 ^ grid v)

/-- A figure of at most 40 digits, the last one not below the finest grid. -/
def Representable (r : ℚ) : Prop :=
  ∃ n e : ℤ, |n| < 10 ^ 40 ∧ money.leastExponent ≤ e ∧ r = n * 10 ^ e

theorem grid_eq (v : ℚ) : grid v = max (Int.log 10 |v| - 39) (-1000038) := rfl

@[simp] theorem grid_neg (v : ℚ) : grid (-v) = grid v := by simp [grid]

@[simp] theorem truncate_zero : truncate 0 = 0 := by simp [truncate]

@[simp] theorem truncate_neg (v : ℚ) : truncate (-v) = -truncate v := by
  simp [truncate, Left.sign_neg]

theorem truncate_of_nonneg {v : ℚ} (h : 0 ≤ v) : truncate v = ⌊v / 10 ^ grid v⌋ * 10 ^ grid v := by
  rcases h.eq_or_lt with rfl | positive
  · simp
  · simp [truncate, sign_pos positive, abs_of_pos positive]

theorem truncate_nonneg {v : ℚ} (h : 0 ≤ v) : 0 ≤ truncate v := by
  rw [truncate_of_nonneg h]
  have : 0 ≤ ⌊v / 10 ^ grid v⌋ := Int.floor_nonneg.mpr (by positivity)
  positivity

theorem truncate_le {v : ℚ} (h : 0 ≤ v) : truncate v ≤ v := by
  have ten : (0 : ℚ) < 10 ^ grid v := by positivity
  rw [truncate_of_nonneg h]
  calc (⌊v / 10 ^ grid v⌋ : ℚ) * 10 ^ grid v ≤ v / 10 ^ grid v * 10 ^ grid v :=
        mul_le_mul_of_nonneg_right (Int.floor_le _) ten.le
    _ = v := div_mul_cancel₀ v ten.ne'

theorem lt_truncate_add {v : ℚ} (h : 0 ≤ v) : v < truncate v + 10 ^ grid v := by
  have ten : (0 : ℚ) < 10 ^ grid v := by positivity
  rw [truncate_of_nonneg h]
  calc v = v / 10 ^ grid v * 10 ^ grid v := (div_mul_cancel₀ v ten.ne').symm
    _ < (⌊v / 10 ^ grid v⌋ + 1) * 10 ^ grid v :=
        mul_lt_mul_of_pos_right (Int.lt_floor_add_one _) ten
    _ = _ := by ring

/-- What holds of values above zero holds of their opposites. -/
theorem le_truncate_of_nonpos {v : ℚ} (h : v ≤ 0) : v ≤ truncate v ∧ truncate v ≤ 0 := by
  have low := truncate_nonneg (neg_nonneg.mpr h)
  have high := truncate_le (neg_nonneg.mpr h)
  rw [truncate_neg] at low high
  exact ⟨by linarith, by linarith⟩

theorem abs_truncate_le (v : ℚ) : |truncate v| ≤ |v| := by
  rcases le_total 0 v with h | h
  · rw [abs_of_nonneg h, abs_of_nonneg (truncate_nonneg h)]
    exact truncate_le h
  · obtain ⟨low, high⟩ := le_truncate_of_nonpos h
    rw [abs_of_nonpos h, abs_of_nonpos high]
    linarith

/-! ## Places -/

/-- A multiple of a place is one of every lower place. -/
theorem intCast_mul_zpow {n e f : ℤ} (le : e ≤ f) :
    (n * 10 ^ f : ℚ) = ((n * 10 ^ (f - e).toNat : ℤ) : ℚ) * 10 ^ e := by
  push_cast
  rw [← zpow_natCast, Int.toNat_of_nonneg (by omega), mul_assoc, ← zpow_add₀ (by norm_num)]
  congr 2
  omega

/-- With 40 digits, a figure whose last digit is below a place does not reach the 40th above. -/
theorem le_exponent_of_leading {n e f : ℤ} (few : |n| < 10 ^ 40)
    (leading : (10 : ℚ) ^ (e + 39) ≤ n * 10 ^ f) : e ≤ f := by
  by_contra low
  have few' : (n : ℚ) < 10 ^ 40 := by exact_mod_cast (le_abs_self n).trans_lt few
  have : (n : ℚ) * 10 ^ f < 10 ^ (e + 39) :=
    calc (n : ℚ) * 10 ^ f < 10 ^ 40 * 10 ^ f := mul_lt_mul_of_pos_right few' (by positivity)
      _ = 10 ^ (40 + f) := by rw [zpow_add₀ (by norm_num)]; norm_num
      _ ≤ 10 ^ (e + 39) := zpow_le_zpow_right₀ (by norm_num) (by omega)
  linarith

/-! ## The next figure toward zero -/

theorem Representable.neg {r : ℚ} (h : Representable r) : Representable (-r) := by
  obtain ⟨n, e, few, least, rfl⟩ := h
  exact ⟨-n, e, by rwa [abs_neg], least, by push_cast; ring⟩

theorem representable_zero : Representable 0 := ⟨0, 0, by norm_num, by decide, by simp⟩

theorem representable_intCast {n : ℤ} (few : |n| < 10 ^ 40) : Representable n :=
  ⟨n, 0, few, by decide, by simp⟩

theorem representable_one : Representable 1 := ⟨1, 0, by norm_num, by decide, by simp⟩

theorem representable_zpow {e : ℤ} (least : money.leastExponent ≤ e) : Representable (10 ^ e) :=
  ⟨1, e, by norm_num, least, by simp⟩

theorem Representable.min {r s : ℚ} (hr : Representable r) (hs : Representable s) :
    Representable (min r s) := by
  rcases min_choice r s with left | right
  · rwa [left]
  · rwa [right]

/-- Above the finest grid, the place of the leading digit is kept. -/
theorem leading_le_truncate {v : ℚ} (positive : 0 < v) (normal : -1000038 < grid v) :
    (10 : ℚ) ^ (grid v + 39) ≤ truncate v := by
  have low := Int.zpow_log_le_self (b := 10) (by decide) positive
  have place : grid v = Int.log 10 v - 39 := by
    rw [grid_eq, abs_of_pos positive] at normal ⊢
    omega
  have ten : (0 : ℚ) < 10 ^ grid v := by positivity
  rw [truncate_of_nonneg positive.le, add_comm, zpow_add₀ (by norm_num)]
  refine mul_le_mul_of_nonneg_right ?_ ten.le
  have whole : ((10 ^ 39 : ℤ) : ℚ) ≤ v / 10 ^ grid v := by
    rw [le_div_iff₀ ten]
    push_cast
    calc (10 : ℚ) ^ 39 * 10 ^ grid v = 10 ^ (39 + grid v) := by
          rw [zpow_add₀ (by norm_num)]; norm_num
      _ ≤ v := by rw [place]; simpa using low
  have := Int.le_floor.mpr whole
  exact_mod_cast this

theorem Representable.le_truncate {r v : ℚ} (h : Representable r) (le : r ≤ v) :
    r ≤ truncate v := by
  rcases le_total v 0 with hv | hv
  · exact le.trans (le_truncate_of_nonpos hv).1
  rcases le_or_gt r 0 with hr | hr
  · exact hr.trans (truncate_nonneg hv)
  obtain ⟨n, e, few, least, rfl⟩ := h
  -- Either the figure lies on the grid of `v`, or it is below the leading digit of `v`.
  rcases le_or_gt (grid v) e with fine | coarse
  · have ten : (0 : ℚ) < 10 ^ grid v := by positivity
    rw [intCast_mul_zpow fine] at le ⊢
    rw [truncate_of_nonneg hv]
    refine mul_le_mul_of_nonneg_right ?_ ten.le
    have : n * 10 ^ (e - grid v).toNat ≤ ⌊v / 10 ^ grid v⌋ := by
      rw [Int.le_floor, le_div_iff₀ ten]
      exact le
    exact_mod_cast this
  · have few' : (n : ℚ) < 10 ^ 40 := by exact_mod_cast (le_abs_self n).trans_lt few
    have floor : -1000038 ≤ e := least
    calc (n : ℚ) * 10 ^ e ≤ 10 ^ 40 * 10 ^ e := mul_le_mul_of_nonneg_right few'.le (by positivity)
      _ = 10 ^ (40 + e) := by rw [zpow_add₀ (by norm_num)]; norm_num
      _ ≤ 10 ^ (grid v + 39) := zpow_le_zpow_right₀ (by norm_num) (by omega)
      _ ≤ truncate v := leading_le_truncate (hr.trans_le le) (by omega)

theorem Representable.truncate_le {r v : ℚ} (h : Representable r) (le : v ≤ r) :
    truncate v ≤ r := by
  have := h.neg.le_truncate (neg_le_neg le)
  rw [truncate_neg] at this
  linarith

theorem Representable.truncate_eq {r : ℚ} (h : Representable r) : truncate r = r :=
  le_antisymm (h.truncate_le le_rfl) (h.le_truncate le_rfl)

theorem representable_truncate (v : ℚ) : Representable (truncate v) := by
  have nonneg {w : ℚ} (h : 0 ≤ w) : Representable (truncate w) := by
    have ten : (0 : ℚ) < 10 ^ grid w := by positivity
    refine ⟨⌊w / 10 ^ grid w⌋, grid w, ?_, le_max_right _ _, truncate_of_nonneg h⟩
    rw [abs_of_nonneg (Int.floor_nonneg.mpr (by positivity)), Int.floor_lt, div_lt_iff₀ ten]
    have high := Int.lt_zpow_succ_log_self (b := 10) (by decide) w
    push_cast
    calc w < (10 : ℚ) ^ (Int.log 10 w + 1) := by simpa using high
      _ ≤ 10 ^ (40 + grid w) := by
        refine zpow_le_zpow_right₀ (by norm_num) ?_
        rw [grid_eq, abs_of_nonneg h]
        omega
      _ = 10 ^ 40 * 10 ^ grid w := by rw [zpow_add₀ (by norm_num)]; norm_num
  rcases le_total 0 v with h | h
  · exact nonneg h
  · have := (nonneg (neg_nonneg.mpr h)).neg
    rwa [truncate_neg, neg_neg] at this

@[simp] theorem truncate_truncate (v : ℚ) : truncate (truncate v) = truncate v :=
  (representable_truncate v).truncate_eq

/-- Rounding never reverses an order. -/
theorem truncate_mono {v w : ℚ} (le : v ≤ w) : truncate v ≤ truncate w := by
  rcases le_total 0 v with hv | hv
  · exact (representable_truncate v).le_truncate ((truncate_le hv).trans le)
  rcases le_total 0 w with hw | hw
  · exact (le_truncate_of_nonpos hv).2.trans (truncate_nonneg hw)
  · exact (representable_truncate w).truncate_le (le.trans (le_truncate_of_nonpos hw).1)

theorem truncate_le_max (v : ℚ) : truncate v ≤ max 0 v :=
  (truncate_mono (le_max_right 0 v)).trans (truncate_le (le_max_left 0 v))

/-- Values between the same two figures are cut to the same one. -/
theorem truncate_eq_of_gap {v w : ℚ} (hv : 0 ≤ v) (hw : 0 ≤ w)
    (same : ∀ r, Representable r → (r ≤ v ↔ r ≤ w)) : truncate v = truncate w := by
  refine le_antisymm ?_ ?_
  · exact (representable_truncate v).le_truncate
      ((same _ (representable_truncate v)).mp (truncate_le hv))
  · exact (representable_truncate w).le_truncate
      ((same _ (representable_truncate w)).mpr (truncate_le hw))

/-- From `10 ^ (e + 39)` on, figures are multiples of `10 ^ e`. -/
theorem Representable.le_of_lt_next {r : ℚ} (h : Representable r) {a e : ℤ} (high : 10 ^ 39 ≤ a)
    (lt : r < (a + 1) * 10 ^ e) : r ≤ a * 10 ^ e := by
  by_contra above
  rw [not_le] at above
  obtain ⟨n, f, few, -, rfl⟩ := h
  have ten : (0 : ℚ) < 10 ^ e := by positivity
  have high' : (10 : ℚ) ^ 39 ≤ a := by exact_mod_cast high
  have leading : (10 : ℚ) ^ (e + 39) ≤ n * 10 ^ f :=
    calc (10 : ℚ) ^ (e + 39) = 10 ^ 39 * 10 ^ e := by
          rw [add_comm, zpow_add₀ (by norm_num)]; norm_num
      _ ≤ a * 10 ^ e := mul_le_mul_of_nonneg_right high' ten.le
      _ ≤ n * 10 ^ f := above.le
  rw [intCast_mul_zpow (le_exponent_of_leading few leading)] at lt above
  have below : n * 10 ^ (f - e).toNat < a + 1 := by exact_mod_cast lt_of_mul_lt_mul_right lt ten.le
  have beyond : a < n * 10 ^ (f - e).toNat := by
    exact_mod_cast lt_of_mul_lt_mul_right above ten.le
  omega

/-! ## Room above a cut value -/

/-- A figure that is not near zero has 40 digits on its own grid. -/
theorem Representable.exists_leading {c : ℚ} (h : Representable c) (positive : 0 < c)
    (normal : -1000038 < grid c) : ∃ a : ℤ, 10 ^ 39 ≤ a ∧ c = a * 10 ^ grid c := by
  have cut := h.truncate_eq
  rw [truncate_of_nonneg positive.le] at cut
  have ten : (0 : ℚ) < 10 ^ grid c := by positivity
  have leading : (10 : ℚ) ^ (39 : ℤ) * 10 ^ grid c ≤ ⌊c / 10 ^ grid c⌋ * 10 ^ grid c := by
    rw [← zpow_add₀ (by norm_num), add_comm, cut]
    exact (leading_le_truncate positive normal).trans_eq h.truncate_eq
  refine ⟨⌊c / 10 ^ grid c⌋, ?_, cut.symm⟩
  have whole := le_of_mul_le_mul_right leading ten
  exact_mod_cast whole

/-- A figure that is no smaller than a cut value has no finer grid than that value. -/
theorem grid_le_grid {v c : ℚ} (hv : 0 < v) (hc : 0 < c) (le : truncate v ≤ c) :
    grid v ≤ grid c := by
  by_contra coarser
  rw [not_le] at coarser
  have finest : -1000038 ≤ grid c := le_max_right _ _
  have leading := (leading_le_truncate hv (by omega)).trans le
  have high := Int.lt_zpow_succ_log_self (b := 10) (by decide) c
  have top : Int.log 10 c + 1 ≤ grid c + 40 := by
    rw [grid_eq, abs_of_pos hc]
    omega
  have below : (10 : ℚ) ^ (grid v + 39) < 10 ^ (grid c + 40) :=
    (leading.trans_lt (high.trans_eq (by simp))).trans_le
      (zpow_le_zpow_right₀ (by norm_num) top)
  have := (zpow_lt_zpow_iff_right₀ (by norm_num : (1 : ℚ) < 10)).mp below
  omega

/-- The room that a cut value leaves below a figure can be filled up, since what was cut off is
    less than a step of the figure's grid. -/
theorem truncate_add_le_of_room {v w c : ℚ} (exact : Representable c) (positive : 0 < c)
    (normal : -1000038 < grid c) (hv : 0 ≤ v) (hw : 0 ≤ w) (room : w ≤ c - truncate v) :
    truncate (v + w) ≤ c := by
  rcases hv.eq_or_lt with rfl | hv
  · rw [truncate_zero, sub_zero] at room
    rw [zero_add]
    exact exact.truncate_le room
  · obtain ⟨a, high, c_eq⟩ := exact.exists_leading positive normal
    have step : (10 : ℚ) ^ grid v ≤ 10 ^ grid c :=
      zpow_le_zpow_right₀ (by norm_num) (grid_le_grid hv positive (by linarith))
    have below : v + w < (a + 1) * 10 ^ grid c := by
      rw [add_mul, one_mul, ← c_eq]
      linarith [lt_truncate_add hv.le]
    refine le_of_le_of_eq ?_ c_eq.symm
    exact (representable_truncate _).le_of_lt_next high
      ((truncate_le (add_nonneg hv.le hw)).trans_lt below)

/-! ## What is lost -/

/-- A value below the normal range that is not kept as it is. -/
def Underflows (v : ℚ) : Prop := |v| < 10 ^ (-money.maxExponent : ℤ) ∧ truncate v ≠ v

/-- A unit of the last of 40 digits, relative to the leading one. -/
def ulp : ℚ := 10 ^ (-39 : ℤ)

theorem ulp_eq : ulp = 1 / 10 ^ 39 := by norm_num [ulp]

theorem ulp_pos : 0 < ulp := by unfold ulp; positivity

/-- The grid of a value in the normal range, against the value. -/
theorem zpow_grid_le {v : ℚ} (normal : (10 : ℚ) ^ (-money.maxExponent : ℤ) ≤ v) :
    (10 : ℚ) ^ grid v ≤ ulp * v := by
  have positive : 0 < v := lt_of_lt_of_le (by positivity) normal
  have place : -money.maxExponent ≤ Int.log 10 v :=
    (Int.zpow_le_iff_le_log (by decide) positive).mp normal
  have least : (money.maxExponent : ℤ) = 999999 := rfl
  have low := Int.zpow_log_le_self (b := 10) (by decide) positive
  rw [grid_eq, abs_of_pos positive, max_eq_left (by omega), sub_eq_add_neg, add_comm,
    zpow_add₀ (by norm_num)]
  exact mul_le_mul_of_nonneg_left (by simpa using low) ulp_pos.le

/-- What is not far below 1 is in the normal range. -/
theorem normal_of_large {bound : ℚ} (large : 1 / 10 ^ 8 ≤ bound) :
    (10 : ℚ) ^ (-money.maxExponent : ℤ) ≤ bound := by
  refine le_trans ?_ large
  calc (10 : ℚ) ^ (-money.maxExponent : ℤ) ≤ 10 ^ (-8 : ℤ) :=
        zpow_le_zpow_right₀ (by norm_num) (by decide)
    _ = 1 / 10 ^ 8 := by norm_num

/-- What is cut off a value is at most a unit of a bound of it in the normal range. -/
theorem sub_truncate_le_of_normal {v bound : ℚ} (h : 0 ≤ v) (le : v ≤ bound)
    (normal : (10 : ℚ) ^ (-money.maxExponent : ℤ) ≤ bound) : v - truncate v ≤ ulp * bound := by
  have room := zpow_grid_le normal
  rcases h.eq_or_lt with rfl | positive
  · rw [truncate_zero, sub_zero]
    exact mul_nonneg ulp_pos.le le
  · have lost := lt_truncate_add h
    have finer : (10 : ℚ) ^ grid v ≤ 10 ^ grid bound :=
      zpow_le_zpow_right₀ (by norm_num)
        (grid_le_grid positive (positive.trans_le le) ((truncate_le h).trans le))
    linarith

/-- The same for values of either sign. -/
theorem abs_truncate_sub_le_of_normal {v bound : ℚ} (le : |v| ≤ bound)
    (normal : (10 : ℚ) ^ (-money.maxExponent : ℤ) ≤ bound) :
    |truncate v - v| ≤ ulp * bound := by
  rcases le_total 0 v with h | h
  · rw [abs_of_nonneg h] at le
    rw [abs_sub_comm, abs_of_nonneg (sub_nonneg.mpr (truncate_le h))]
    exact sub_truncate_le_of_normal h le normal
  · rw [abs_of_nonpos h] at le
    have lost := sub_truncate_le_of_normal (neg_nonneg.mpr h) le normal
    rw [truncate_neg] at lost
    rw [abs_of_nonneg (sub_nonneg.mpr (le_truncate_of_nonpos h).1)]
    linarith

theorem sub_truncate_le {v : ℚ} (h : 0 ≤ v) (kept : ¬ Underflows v) : v - truncate v ≤ ulp * v := by
  by_cases normal : (10 : ℚ) ^ (-money.maxExponent : ℤ) ≤ v
  · exact sub_truncate_le_of_normal h le_rfl normal
  · have exact : truncate v = v := by
      by_contra changed
      exact kept ⟨by rwa [abs_of_nonneg h, ← not_le], changed⟩
    rw [exact, sub_self]
    exact mul_nonneg ulp_pos.le h

theorem underflows_neg {v : ℚ} : Underflows (-v) ↔ Underflows v := by
  simp [Underflows]

theorem abs_sub_truncate_le {v : ℚ} (kept : ¬ Underflows v) : |v - truncate v| ≤ ulp * |v| := by
  rcases le_total 0 v with h | h
  · rw [abs_of_nonneg h, abs_of_nonneg (sub_nonneg.mpr (truncate_le h))]
    exact sub_truncate_le h kept
  · have lost := sub_truncate_le (neg_nonneg.mpr h) (mt underflows_neg.mp kept)
    rw [truncate_neg] at lost
    rw [abs_of_nonpos h, abs_sub_comm, abs_of_nonneg (sub_nonneg.mpr (le_truncate_of_nonpos h).1)]
    linarith

def OnGrid (v : ℚ) : Prop := ∃ n : ℤ, v = n * 10 ^ money.leastExponent

theorem Representable.onGrid {r : ℚ} (h : Representable r) : OnGrid r := by
  obtain ⟨n, e, -, least, rfl⟩ := h
  exact ⟨_, intCast_mul_zpow least⟩

theorem onGrid_intCast (n : ℤ) : OnGrid n := by
  have least : money.leastExponent ≤ 0 := by decide
  refine ⟨_, Eq.trans ?_ (intCast_mul_zpow (n := n) least)⟩
  rw [zpow_zero, mul_one]

theorem OnGrid.add {v w : ℚ} (hv : OnGrid v) (hw : OnGrid w) : OnGrid (v + w) := by
  obtain ⟨n, rfl⟩ := hv
  obtain ⟨m, rfl⟩ := hw
  exact ⟨n + m, by push_cast; ring⟩

theorem OnGrid.neg {v : ℚ} (hv : OnGrid v) : OnGrid (-v) := by
  obtain ⟨n, rfl⟩ := hv
  exact ⟨-n, by push_cast; ring⟩

theorem OnGrid.mul_intCast {v : ℚ} (hv : OnGrid v) (n : ℤ) : OnGrid (v * n) := by
  obtain ⟨m, rfl⟩ := hv
  exact ⟨m * n, by push_cast; ring⟩

theorem OnGrid.sub {v w : ℚ} (hv : OnGrid v) (hw : OnGrid w) : OnGrid (v - w) := by
  rw [sub_eq_add_neg]
  exact hv.add hw.neg

/-- Below the normal range, what lies on the finest grid is a figure. -/
theorem OnGrid.representable_of_small {v : ℚ} (h : OnGrid v)
    (small : |v| < 10 ^ (-money.maxExponent : ℤ)) : Representable v := by
  obtain ⟨n, rfl⟩ := h
  have ten : (0 : ℚ) < 10 ^ money.leastExponent := by positivity
  have few : |(n : ℚ)| < 10 ^ (39 : ℤ) := by
    rw [abs_mul, abs_of_pos ten] at small
    refine lt_of_mul_lt_mul_right (small.trans_eq ?_) ten.le
    rw [← zpow_add₀ (by norm_num)]
    rfl
  have : |n| < 10 ^ 39 := by exact_mod_cast few
  exact ⟨n, money.leastExponent, by omega, le_rfl, rfl⟩

/-- A sum of figures that falls below the normal range is kept as it is. -/
theorem OnGrid.not_underflows {v : ℚ} (h : OnGrid v) : ¬ Underflows v := by
  rintro ⟨small, changed⟩
  exact changed (h.representable_of_small small).truncate_eq

theorem onGrid_truncate (v : ℚ) : OnGrid (truncate v) := (representable_truncate v).onGrid

/-- What is above zero on the finest grid is a step of it at least. -/
theorem OnGrid.least_le {v : ℚ} (h : OnGrid v) (positive : 0 < v) :
    10 ^ money.leastExponent ≤ v := by
  obtain ⟨n, rfl⟩ := h
  have ten : (0 : ℚ) < 10 ^ money.leastExponent := by positivity
  have above : (0 : ℚ) < n := pos_of_mul_pos_left positive ten.le
  have whole : (1 : ℚ) ≤ n := by exact_mod_cast above
  exact le_mul_of_one_le_left ten.le whole

theorem OnGrid.truncate_pos {v : ℚ} (h : OnGrid v) (positive : 0 < v) : 0 < truncate v := by
  have ten : (0 : ℚ) < 10 ^ money.leastExponent := by positivity
  exact ten.trans_le ((representable_zpow le_rfl).le_truncate (h.least_le positive))

theorem truncate_eq_zero {v : ℚ} (h : 0 ≤ v) (small : v < 10 ^ money.leastExponent) :
    truncate v = 0 := by
  refine (truncate_nonneg h).antisymm' (not_lt.mp fun positive => ?_)
  have := (onGrid_truncate v).least_le positive
  linarith [truncate_le h]

/-- A sum of figures loses a unit at most, relative to any bound of it. -/
theorem OnGrid.abs_truncate_sub_le {v bound : ℚ} (h : OnGrid v) (le : |v| ≤ bound) :
    |truncate v - v| ≤ ulp * bound := by
  rw [abs_sub_comm]
  exact (abs_sub_truncate_le h.not_underflows).trans (mul_le_mul_of_nonneg_left le ulp_pos.le)

/-! ## Digits below the finest grid -/

/-- A value of at most 40 digits, wherever they stand. -/
def FewDigits (v : ℚ) : Prop := ∃ n e : ℤ, |n| < 10 ^ 40 ∧ v = n * 10 ^ e

theorem Representable.fewDigits {v : ℚ} (h : Representable v) : FewDigits v := by
  obtain ⟨n, e, few, -, value⟩ := h
  exact ⟨n, e, few, value⟩

/-- Digits below the finest grid are those of a value below the normal range. -/
theorem FewDigits.representable_or_small {v : ℚ} (h : FewDigits v) :
    Representable v ∨ |v| < 10 ^ (-money.maxExponent : ℤ) := by
  obtain ⟨n, e, few, rfl⟩ := h
  rcases le_or_gt money.leastExponent e with least | finer
  · exact .inl ⟨n, e, few, least, rfl⟩
  · right
    have ten : (0 : ℚ) < 10 ^ e := by positivity
    have few' : |(n : ℚ)| < 10 ^ 40 := by exact_mod_cast few
    have place : money.leastExponent = -money.maxExponent - 39 := rfl
    calc |(n : ℚ) * 10 ^ e| = |(n : ℚ)| * 10 ^ e := by rw [abs_mul, abs_of_pos ten]
      _ < 10 ^ 40 * 10 ^ e := mul_lt_mul_of_pos_right few' ten
      _ = 10 ^ (40 + e) := by rw [zpow_add₀ (by norm_num)]; norm_num
      _ ≤ 10 ^ (-money.maxExponent : ℤ) := zpow_le_zpow_right₀ (by norm_num) (by omega)

theorem FewDigits.representable {v : ℚ} (h : FewDigits v) (grid : OnGrid v) :
    Representable v := by
  rcases h.representable_or_small with figure | small
  · exact figure
  · exact grid.representable_of_small small

/-! ## A share taken off -/

/-- A figure that is no smaller than a cut value lies on the grid of that value. -/
theorem Representable.exists_eq_grid {r v : ℚ} (h : Representable r) (positive : 0 < v)
    (le : truncate v ≤ r) : ∃ n : ℤ, r = n * 10 ^ grid v := by
  have finest : (-1000038 : ℤ) ≤ grid v := le_max_right _ _
  rcases finest.eq_or_lt with least | normal
  · rw [← least]
    exact h.onGrid
  · have leading := (leading_le_truncate positive normal).trans le
    obtain ⟨n, e, few, -, rfl⟩ := h
    exact ⟨_, intCast_mul_zpow (le_exponent_of_leading few leading)⟩

theorem truncate_share_le {a share : ℚ} (nonneg : 0 ≤ a) (share_nonneg : 0 ≤ share)
    (share_le : share ≤ 1) : truncate (a * share) ≤ a :=
  (truncate_le (mul_nonneg nonneg share_nonneg)).trans (mul_le_of_le_one_right nonneg share_le)

/-- What is left of a figure when a cut share is taken off never shrinks as the figure grows:
    all four figures lie on the grid of the smaller share, and the cuts differ by less than a
    step of it more than the shares do. -/
theorem sub_truncate_share_mono {a b share : ℚ} (ha : Representable a) (hb : Representable b)
    (nonneg : 0 ≤ a) (le : a ≤ b) (share_nonneg : 0 ≤ share) (share_le : share ≤ 1) :
    a - truncate (a * share) ≤ b - truncate (b * share) := by
  have shares_le : a * share ≤ b * share := mul_le_mul_of_nonneg_right le share_nonneg
  have own_le := truncate_share_le nonneg share_nonneg share_le
  have other_le : b * share - a * share ≤ b - a := by
    rw [← sub_mul]
    exact mul_le_of_le_one_right (sub_nonneg.mpr le) share_le
  rcases (mul_nonneg nonneg share_nonneg).eq_or_lt with none | positive
  · have cut := truncate_le (none.trans_le shares_le)
    rw [← none] at other_le ⊢
    rw [truncate_zero]
    linarith
  · obtain ⟨i, hi⟩ := ha.exists_eq_grid positive own_le
    obtain ⟨j, hj⟩ := hb.exists_eq_grid positive (own_le.trans le)
    obtain ⟨k, hk⟩ := (representable_truncate (a * share)).exists_eq_grid positive le_rfl
    obtain ⟨l, hl⟩ := (representable_truncate (b * share)).exists_eq_grid positive
      (truncate_mono shares_le)
    have below := truncate_le (positive.le.trans shares_le)
    have above := lt_truncate_add positive.le
    have ten : (0 : ℚ) < 10 ^ grid (a * share) := by positivity
    generalize (10 : ℚ) ^ grid (a * share) = step at *
    have apart : ((l - k - 1 : ℤ) : ℚ) * step < ((j - i : ℤ) : ℚ) * step := by
      push_cast
      linarith
    have whole : l - k - 1 < j - i := by exact_mod_cast lt_of_mul_lt_mul_right apart ten.le
    have grown : ((i - k : ℤ) : ℚ) ≤ (j - l : ℤ) := by exact_mod_cast (by omega : i - k ≤ j - l)
    have := mul_le_mul_of_nonneg_right grown ten.le
    push_cast at this
    linarith

/-- The same of what is left in the end, also if the smaller amount has digits below the finest
    grid: they are cut off all the same, and of what is left of it without them the share is no
    larger. -/
theorem truncate_sub_share_mono {a b share : ℚ} (ha : FewDigits a) (hb : Representable b)
    (nonneg : 0 ≤ a) (le : a ≤ b) (share_nonneg : 0 ≤ share) (share_le : share ≤ 1) :
    truncate (a - truncate (a * share)) ≤ truncate (b - truncate (b * share)) := by
  rcases ha.representable_or_small with figure | small
  · exact truncate_mono (sub_truncate_share_mono figure hb nonneg le share_nonneg share_le)
  · have part_nonneg := truncate_nonneg (mul_nonneg nonneg share_nonneg)
    have part_le := truncate_share_le nonneg share_nonneg share_le
    have rest_nonneg := truncate_nonneg (sub_nonneg.mpr part_le)
    have rest_le := truncate_le (sub_nonneg.mpr part_le)
    have joined : truncate (a - truncate (a * share)) + truncate (a * share) ≤ truncate a := by
      refine Representable.le_truncate (OnGrid.representable_of_small ?_ ?_) (by linarith)
      · exact (onGrid_truncate _).add (onGrid_truncate _)
      · rw [abs_of_nonneg (add_nonneg rest_nonneg part_nonneg)]
        rw [abs_of_nonneg nonneg] at small
        linarith
    have cut_part : truncate (truncate a * share) ≤ truncate (a * share) :=
      truncate_mono (mul_le_mul_of_nonneg_right (truncate_le nonneg) share_nonneg)
    have grown := sub_truncate_share_mono (representable_truncate a) hb (truncate_nonneg nonneg)
      ((truncate_le nonneg).trans le) share_nonneg share_le
    exact (representable_truncate _).le_truncate (by linarith)

end Lending.Truncation
