/-
  Lending.Proofs.Decimal.PowerOrder — powers of larger numbers are larger, rounded or not.

  Neither way of rounding reverses an order (`Rounding.quotient_mono`) or changes a whole number
  (`Rounding.quotient_whole`). So a context keeps the order of numbers from 1 on, on one grid and
  across a power of ten, which is on both grids (`Context.round_mono`); none falls below 1, and
  none loses a unit of its last digit (`Context.le_round`).

  What holds of one product holds of the steps of a power: a larger base gives a larger power
  (`power_mono`), and the power is at least that of the base less one unit of the context
  (`le_power`).
-/
import Lending.Proofs.Decimal.Power

namespace Lending

open Outcome Truncation

/-! ## Whole numbers -/

namespace Rounding

/-- A middle goes to the even side. -/
theorem halfEven_quotient_of_middle {num den m : Nat} (positive : 0 < den)
    (middle : 2 * num = (2 * m + 1) * den) : halfEven.quotient num den = m + m % 2 := by
  have whole : num / den = m := by
    rw [Nat.div_eq_iff positive]
    rw [Nat.add_mul, Nat.mul_assoc] at middle
    omega
  have rest : 2 * (num % den) = den := by
    have split := Nat.div_add_mod num den
    rw [whole] at split
    nlinarith
  simp only [quotient, rest, whole]
  rw [Nat.compare_eq_eq.mpr rfl]

theorem quotient_whole (r : Rounding) (m : Nat) {den : Nat} (positive : 0 < den) :
    r.quotient (m * den) den = m := by
  cases r with
  | towardZero => exact Nat.mul_div_cancel m positive
  | halfEven =>
    simp only [quotient, Nat.mul_mod_left, Nat.mul_zero]
    rw [Nat.compare_eq_lt.mpr positive]
    exact Nat.mul_div_cancel m positive

theorem quotient_mono (r : Rounding) {num den num' den' : Nat} (hd : 0 < den) (hd' : 0 < den')
    (le : num * den' ≤ num' * den) : r.quotient num den ≤ r.quotient num' den' := by
  cases r with
  | towardZero =>
    show num / den ≤ num' / den'
    rw [Nat.le_div_iff_mul_le hd']
    refine Nat.le_of_mul_le_mul_right ?_ hd
    calc num / den * den' * den = num / den * den * den' := by ring
      _ ≤ num * den' := Nat.mul_le_mul_right den' (Nat.div_mul_le_self num den)
      _ ≤ num' * den := le
  | halfEven =>
    obtain ⟨-, low⟩ := halfEven_quotient_near num hd
    obtain ⟨high, -⟩ := halfEven_quotient_near num' hd'
    by_contra reversed
    rw [not_le] at reversed
    -- then both are at one middle, and go to the same side
    have above : (2 * halfEven.quotient num' den' + 1) * den ≤ 2 * num := by
      have next := Nat.mul_le_mul_right den reversed
      rw [Nat.succ_mul] at next
      linarith
    have below : 2 * num' ≤ (2 * halfEven.quotient num' den' + 1) * den' := by linarith
    have middle : 2 * num = (2 * halfEven.quotient num' den' + 1) * den := by
      refine le_antisymm (Nat.le_of_mul_le_mul_right ?_ hd') above
      linarith [Nat.mul_le_mul_right den below]
    have middle' : 2 * num' = (2 * halfEven.quotient num' den' + 1) * den' := by
      refine le_antisymm below (Nat.le_of_mul_le_mul_right ?_ hd)
      linarith [Nat.mul_le_mul_right den' above]
    have same := (halfEven_quotient_of_middle hd middle).trans
      (halfEven_quotient_of_middle hd' middle').symm
    exact reversed.ne' same

theorem le_quotient_of_le (r : Rounding) {m num den : Nat} (hd : 0 < den) (le : m * den ≤ num) :
    m ≤ r.quotient num den :=
  (r.quotient_whole m hd).ge.trans (r.quotient_mono hd hd (Nat.mul_le_mul_right den le))

theorem quotient_le_of_le (r : Rounding) {m num den : Nat} (hd : 0 < den) (le : num ≤ m * den) :
    r.quotient num den ≤ m :=
  (r.quotient_mono hd hd (Nat.mul_le_mul_right den le)).trans (r.quotient_whole m hd).le

theorem le_quotient_add_one (r : Rounding) (num : Nat) {den : Nat} (hd : 0 < den) :
    (num : ℚ) / den ≤ r.quotient num den + 1 := by
  have whole : (0 : ℚ) < den := by exact_mod_cast hd
  have floor := r.le_quotient_of_le hd (Nat.div_mul_le_self num den)
  have next : num ≤ (num / den + 1) * den := by
    rw [Nat.mul_comm]
    exact (Nat.lt_mul_div_succ num hd).le
  rw [div_le_iff₀ whole]
  exact_mod_cast next.trans (Nat.mul_le_mul_right den (Nat.succ_le_succ floor))

end Rounding

/-! ## Numbers from 1 on -/

namespace Context

theorem log_nonneg {v : ℚ} (one_le : 1 ≤ v) : 0 ≤ Int.log 10 v := by
  rw [Int.log_of_one_le_right _ one_le]
  exact Int.natCast_nonneg _

def place (c : Context) (v : ℚ) : ℤ := Int.log 10 v - (c.precision - 1)

def kept (c : Context) : ℚ := 1 - 10 ^ (1 - c.precision : ℤ)

theorem kept_nonneg {c : Context} (digits : 1 ≤ c.precision) : 0 ≤ c.kept := by
  unfold kept
  exact sub_nonneg.mpr (zpow_le_one_of_nonpos₀ (by norm_num) (by omega))

theorem kept_le_one (c : Context) : c.kept ≤ 1 := by
  unfold kept
  exact sub_le_self 1 (by positivity)

section
variable {c : Context} (digits : 1 ≤ c.precision) {num den : Nat} {exp : ℤ} {v : ℚ} {x : Decimal}
  (hd : den ≠ 0) (value : (num : ℚ) / den * 10 ^ exp = v) (one_le : 1 ≤ v)
  (h : c.round false num den exp = .ok x)
include digits hd value one_le h

/-- Such a number is counted in units of its last place. -/
theorem exists_units : ∃ n d : ℕ, 0 < d ∧ (n : ℚ) / d = v / 10 ^ c.place v ∧
    x.toRat = c.rounding.quotient n d * 10 ^ c.place v := by
  subst value
  have nonzero : num ≠ 0 := by
    rintro rfl
    norm_num at one_le
  have top := log_nonneg one_le
  have grid : c.gridExponent (Int.log 10 ((num : ℚ) / den * 10 ^ exp)) =
      c.place (num / den * 10 ^ exp) := by
    unfold gridExponent leastExponent place
    exact max_eq_left (by omega)
  unfold Context.round at h
  rw [if_neg nonzero] at h
  simp only [top_eq nonzero hd, grid] at h
  split at h
  · cases h
  rw [if_neg] at h
  · split at h
    · cases h
    · cases h
      refine ⟨_, _, ?_, (units_eq_div num den exp _).symm, ?_⟩
      · exact Nat.mul_pos (Nat.pos_of_ne_zero hd) (Nat.pos_of_ne_zero (by simp [tens]))
      · rw [Decimal.toRat_normal, Decimal.unit_false, one_mul]
  · unfold place
    omega

/-- The power of ten below is on the grid, and is not crossed. -/
theorem zpow_log_le_round : (10 : ℚ) ^ Int.log 10 v ≤ x.toRat := by
  obtain ⟨n, d, hd, units, result⟩ := exists_units digits hd value one_le h
  have whole : (0 : ℚ) < d := by exact_mod_cast hd
  have ten : (0 : ℚ) < 10 ^ c.place v := by positivity
  have power : (10 : ℚ) ^ Int.log 10 v = (10 ^ (c.precision - 1) : ℕ) * 10 ^ c.place v := by
    push_cast
    rw [← zpow_natCast, ← zpow_add₀ (by norm_num)]
    congr 1
    unfold place
    omega
  have low := Int.zpow_log_le_self (b := 10) (by decide) (zero_lt_one.trans_le one_le)
  rw [Nat.cast_ofNat, power, ← le_div_iff₀ ten, ← units, le_div_iff₀ whole] at low
  rw [power, result]
  refine mul_le_mul_of_nonneg_right ?_ ten.le
  exact_mod_cast c.rounding.le_quotient_of_le hd (by exact_mod_cast low)

/-- Nor is the power of ten above. -/
theorem round_le_zpow_log : x.toRat ≤ (10 : ℚ) ^ (Int.log 10 v + 1) := by
  obtain ⟨n, d, hd, units, result⟩ := exists_units digits hd value one_le h
  have whole : (0 : ℚ) < d := by exact_mod_cast hd
  have ten : (0 : ℚ) < 10 ^ c.place v := by positivity
  have power : (10 : ℚ) ^ (Int.log 10 v + 1) = (10 ^ c.precision : ℕ) * 10 ^ c.place v := by
    push_cast
    rw [← zpow_natCast, ← zpow_add₀ (by norm_num)]
    congr 1
    unfold place
    omega
  have high := (Int.lt_zpow_succ_log_self (b := 10) (by decide) v).le
  rw [Nat.cast_ofNat, power, ← div_le_iff₀ ten, ← units, div_le_iff₀ whole] at high
  rw [power, result]
  refine mul_le_mul_of_nonneg_right ?_ ten.le
  exact_mod_cast c.rounding.quotient_le_of_le hd (by exact_mod_cast high)

theorem one_le_round : 1 ≤ x.toRat :=
  (one_le_zpow₀ (by norm_num) (log_nonneg one_le)).trans
    (zpow_log_le_round digits hd value one_le h)

/-- Less than a unit of the last place is lost. -/
theorem le_round : v * c.kept ≤ x.toRat := by
  obtain ⟨n, d, hd, units, result⟩ := exists_units digits hd value one_le h
  have ten : (0 : ℚ) < 10 ^ c.place v := by positivity
  have near := c.rounding.le_quotient_add_one n hd
  rw [units, div_le_iff₀ ten, add_mul, one_mul, ← result] at near
  have low := Int.zpow_log_le_self (b := 10) (by decide) (zero_lt_one.trans_le one_le)
  rw [Nat.cast_ofNat] at low
  have unit : (10 : ℚ) ^ c.place v ≤ v * 10 ^ (1 - c.precision : ℤ) := by
    rw [show c.place v = Int.log 10 v + (1 - c.precision) by unfold place; ring,
      zpow_add₀ (by norm_num)]
    exact mul_le_mul_of_nonneg_right low (by positivity)
  unfold kept
  linarith

/-- Numbers with one leading place are on one grid, others have a power of ten between them. -/
theorem round_mono {num' den' : Nat} {exp' : ℤ} {v' : ℚ} {x' : Decimal} (hd' : den' ≠ 0)
    (value' : (num' : ℚ) / den' * 10 ^ exp' = v') (le : v ≤ v')
    (h' : c.round false num' den' exp' = .ok x') : x.toRat ≤ x'.toRat := by
  have one_le' := one_le.trans le
  have positive := zero_lt_one.trans_le one_le
  rcases (Int.log_mono_right positive le : Int.log 10 v ≤ Int.log 10 v').eq_or_lt with same | apart
  · obtain ⟨n, d, hd, units, result⟩ := exists_units digits hd value one_le h
    obtain ⟨n', d', hd', units', result'⟩ := exists_units digits hd' value' one_le' h'
    have grid : c.place v' = c.place v := by unfold place; rw [same]
    have ten : (0 : ℚ) < 10 ^ c.place v := by positivity
    rw [grid] at units' result'
    have ratios := div_le_div_of_nonneg_right le ten.le
    rw [← units, ← units', div_le_div_iff₀ (by exact_mod_cast hd) (by exact_mod_cast hd')] at ratios
    rw [result, result']
    refine mul_le_mul_of_nonneg_right ?_ ten.le
    exact_mod_cast c.rounding.quotient_mono hd hd' (by exact_mod_cast ratios)
  · calc x.toRat ≤ 10 ^ (Int.log 10 v + 1) := round_le_zpow_log digits hd value one_le h
      _ ≤ 10 ^ Int.log 10 v' := zpow_le_zpow_right₀ (by norm_num) apart
      _ ≤ x'.toRat := zpow_log_le_round digits hd' value' one_le' h'

end

/-! ## Products -/

section
variable {c : Context} (digits : 1 ≤ c.precision) {x y z : Decimal} (hx : 1 ≤ x.toRat)
  (hy : 1 ≤ y.toRat)
include hx hy

theorem mul_eq_round : c.mul x y = c.round false (x.coeff * y.coeff) 1 (x.exp + y.exp) := by
  have plus {u : Decimal} (hu : 1 ≤ u.toRat) : u.neg = false := by
    by_contra minus
    have size : (0 : ℚ) ≤ u.coeff * 10 ^ u.exp := by positivity
    rw [Decimal.toRat_eq, Bool.not_eq_false _ |>.mp minus, Decimal.unit_true] at hu
    linarith
  unfold mul
  rw [plus hx, plus hy]
  rfl

theorem product_value :
    ((x.coeff * y.coeff : Nat) : ℚ) / (1 : Nat) * 10 ^ (x.exp + y.exp) = x.toRat * y.toRat := by
  rw [product_eq, abs_of_nonneg (zero_le_one.trans hx), abs_of_nonneg (zero_le_one.trans hy)]

include digits

theorem one_le_mul (h : c.mul x y = .ok z) : 1 ≤ z.toRat := by
  rw [mul_eq_round hx hy] at h
  exact one_le_round digits one_ne_zero (product_value hx hy)
    (one_le_mul_of_one_le_of_one_le hx hy) h

theorem le_mul (h : c.mul x y = .ok z) :
    x.toRat * y.toRat * c.kept ≤ z.toRat := by
  rw [mul_eq_round hx hy] at h
  exact le_round digits one_ne_zero (product_value hx hy)
    (one_le_mul_of_one_le_of_one_le hx hy) h

theorem mul_mono {x' y' z' : Decimal} (x_le : x.toRat ≤ x'.toRat) (y_le : y.toRat ≤ y'.toRat)
    (h : c.mul x y = .ok z) (h' : c.mul x' y' = .ok z') : z.toRat ≤ z'.toRat := by
  have hx' := hx.trans x_le
  have hy' := hy.trans y_le
  rw [mul_eq_round hx hy] at h
  rw [mul_eq_round hx' hy'] at h'
  exact round_mono digits one_ne_zero (product_value hx hy)
    (one_le_mul_of_one_le_of_one_le hx hy) h one_ne_zero (product_value hx' hy')
    (mul_le_mul x_le y_le (zero_le_one.trans hy) (zero_le_one.trans hx')) h'

end

/-! ## Steps -/

section
variable {c : Context} (digits : 1 ≤ c.precision) {base r z : Decimal} (base_one : 1 ≤ base.toRat)
  (hr : 1 ≤ r.toRat)
include digits base_one hr

theorem one_le_powerStep {bit : Bool} (h : c.powerStep base r bit = .ok z) : 1 ≤ z.toRat := by
  unfold powerStep at h
  obtain ⟨square, hsquare, h⟩ := bind_eq_ok_iff.mp h
  have square_one := one_le_mul digits hr hr hsquare
  cases bit with
  | false =>
    cases h
    exact square_one
  | true => exact one_le_mul digits square_one base_one h

theorem powerStep_mono {base' r' z' : Decimal} {bit : Bool} (base_le : base.toRat ≤ base'.toRat)
    (r_le : r.toRat ≤ r'.toRat) (h : c.powerStep base r bit = .ok z)
    (h' : c.powerStep base' r' bit = .ok z') : z.toRat ≤ z'.toRat := by
  unfold powerStep at h h'
  obtain ⟨square, hsquare, h⟩ := bind_eq_ok_iff.mp h
  obtain ⟨square', hsquare', h'⟩ := bind_eq_ok_iff.mp h'
  have square_le := mul_mono digits hr hr r_le r_le hsquare hsquare'
  cases bit with
  | false =>
    cases h
    cases h'
    exact square_le
  | true =>
    exact mul_mono digits (one_le_mul digits hr hr hsquare) base_one square_le base_le h h'

theorem powerSteps_mono {base' r' z' : Decimal} {bits : List Bool}
    (base_le : base.toRat ≤ base'.toRat) (r_le : r.toRat ≤ r'.toRat)
    (h : bits.foldlM (c.powerStep base) r = .ok z)
    (h' : bits.foldlM (c.powerStep base') r' = .ok z') : z.toRat ≤ z'.toRat := by
  induction bits generalizing r r' with
  | nil =>
    cases h
    cases h'
    exact r_le
  | cons bit rest ih =>
    rw [List.foldlM_cons, bind_eq_ok_iff] at h h'
    obtain ⟨next, hnext, h⟩ := h
    obtain ⟨next', hnext', h'⟩ := h'
    exact ih (one_le_powerStep digits base_one hr hnext)
      (powerStep_mono digits base_one hr base_le r_le hnext hnext') h h'

/-- One step doubles the exponent of a bound from below, and adds one if the digit is a one. -/
theorem le_powerStep {bound : ℚ} (nonneg : 0 ≤ bound) (base_ge : bound ≤ base.toRat * c.kept)
    {m : ℕ} (r_ge : bound ^ m ≤ r.toRat * c.kept) {bit : Bool}
    (h : c.powerStep base r bit = .ok z) : bound ^ (2 * m + bit.toNat) ≤ z.toRat * c.kept := by
  have kept := kept_nonneg digits
  unfold powerStep at h
  obtain ⟨square, hsquare, h⟩ := bind_eq_ok_iff.mp h
  have square_ge : bound ^ (2 * m) ≤ square.toRat * c.kept := by
    calc bound ^ (2 * m) = bound ^ m * bound ^ m := by rw [two_mul, pow_add]
      _ ≤ r.toRat * c.kept * (r.toRat * c.kept) :=
        mul_le_mul r_ge r_ge (pow_nonneg nonneg m) ((pow_nonneg nonneg m).trans r_ge)
      _ = r.toRat * r.toRat * c.kept * c.kept := by ring
      _ ≤ square.toRat * c.kept := mul_le_mul_of_nonneg_right (le_mul digits hr hr hsquare) kept
  cases bit with
  | false =>
    cases h
    exact square_ge
  | true =>
    have square_one := one_le_mul digits hr hr hsquare
    calc bound ^ (2 * m + 1) = bound ^ (2 * m) * bound := pow_succ _ _
      _ ≤ square.toRat * c.kept * (base.toRat * c.kept) :=
        mul_le_mul square_ge base_ge nonneg ((pow_nonneg nonneg _).trans square_ge)
      _ = square.toRat * base.toRat * c.kept * c.kept := by ring
      _ ≤ z.toRat * c.kept :=
        mul_le_mul_of_nonneg_right (le_mul digits square_one base_one h) kept

theorem le_powerSteps {bound : ℚ} (nonneg : 0 ≤ bound) (base_ge : bound ≤ base.toRat * c.kept)
    {m : ℕ} (r_ge : bound ^ m ≤ r.toRat * c.kept) {bits : List Bool}
    (h : bits.foldlM (c.powerStep base) r = .ok z) :
    bound ^ readBits m bits ≤ z.toRat * c.kept ∧ 1 ≤ z.toRat := by
  induction bits generalizing r m with
  | nil =>
    cases h
    exact ⟨r_ge, hr⟩
  | cons bit rest ih =>
    rw [List.foldlM_cons, bind_eq_ok_iff] at h
    obtain ⟨next, hnext, h⟩ := h
    exact ih (m := 2 * m + bit.toNat) (one_le_powerStep digits base_one hr hnext)
      (le_powerStep digits base_one hr nonneg base_ge r_ge hnext) h

end

end Context

/-! ## Powers of money -/

theorem one_le_precision_forPower (n : Nat) : 1 ≤ (money.forPower n).precision := by
  unfold Context.forPower
  dsimp only
  omega

section
variable {base z : Decimal} {n : Nat} (positive : n ≠ 0) (h : money.power base n = .ok z)
include positive h

/-- A power is worked out in steps, and cut. -/
theorem exists_powerSteps_of_power :
    ∃ r, (Context.lowerBits n).foldlM ((money.forPower n).powerStep base) base = .ok r ∧
      z.toRat = truncate r.toRat := by
  unfold Context.power Context.powerBySquaring at h
  rw [if_neg positive] at h
  obtain ⟨r, hr, cut⟩ := bind_eq_ok_iff.mp h
  exact ⟨r, hr, roundDecimal_value cut⟩

variable (base_one : 1 ≤ base.toRat)
include base_one

/-- A larger base gives a larger power. -/
theorem power_mono {base' z' : Decimal} (le : base.toRat ≤ base'.toRat)
    (h' : money.power base' n = .ok z') : z.toRat ≤ z'.toRat := by
  obtain ⟨r, hr, value⟩ := exists_powerSteps_of_power positive h
  obtain ⟨r', hr', value'⟩ := exists_powerSteps_of_power positive h'
  rw [value, value']
  exact truncate_mono (Context.powerSteps_mono (one_le_precision_forPower n) base_one base_one
    le le hr hr')

/-- What is lost on the way is less than a unit of the base for each time it is multiplied, and
    at the end a unit of the power. -/
theorem le_power :
    (base.toRat * (money.forPower n).kept) ^ n * (1 - ulp) ≤ z.toRat ∧ 1 ≤ z.toRat := by
  obtain ⟨r, hr, value⟩ := exists_powerSteps_of_power positive h
  have digits := one_le_precision_forPower n
  have kept := Context.kept_nonneg digits
  have nonneg := mul_nonneg (zero_le_one.trans base_one) kept
  obtain ⟨run, r_one⟩ := Context.le_powerSteps (m := 1) digits base_one base_one nonneg le_rfl
    (pow_one _).le hr
  rw [Context.readBits_lowerBits positive] at run
  have r_nonneg := zero_le_one.trans r_one
  have r_ge := run.trans (mul_le_of_le_one_right r_nonneg (Context.kept_le_one _))
  have lost := sub_truncate_le_of_normal r_nonneg le_rfl
    ((zpow_le_one_of_nonpos₀ (by norm_num) (by decide)).trans r_one)
  rw [value]
  refine ⟨?_, representable_one.le_truncate r_one⟩
  calc _ ≤ r.toRat * (1 - ulp) :=
        mul_le_mul_of_nonneg_right r_ge (by linarith [ulp_le])
    _ ≤ truncate r.toRat := by linarith

end

end Lending
