/-
  Lending.Proofs.Decimal.Value — the rational number that a decimal stands for.

  `toRat_eq` gives the value as sign, coefficient and power of ten; `toRat_normal` says that
  the normal form keeps it. The order, the choice of the smaller or larger and the test for
  one value look at the place of the leading digit first and at the digits only if it is the
  same: `compare_eq` and the lemmas after it say that they go by value all the same. They
  rest on `digitCount_eq`: skipping the leading digits by the binary length counts right.
-/
import Lending.Decimal.Arithmetic
import Mathlib.Data.Int.Log
import Mathlib.Data.Rat.Floor
import Mathlib.Tactic

namespace Lending

theorem tens_cast {e : Int} (h : 0 ≤ e) : ((tens e : Nat) : ℚ) = (10 : ℚ) ^ e := by
  obtain ⟨n, rfl⟩ := Int.eq_ofNat_of_zero_le h
  simp [tens]

namespace Decimal

/-! ## Digits -/

theorem countDigits_eq (bound : Nat) {n : Nat} (few : n < 10 ^ bound) (positive : n ≠ 0) :
    countDigits bound n = Nat.log 10 n + 1 := by
  induction bound generalizing n with
  | zero => simp at few; exact absurd few positive
  | succ bound ih =>
    simp only [countDigits, positive, if_false]
    by_cases single : n / 10 = 0
    · rw [single]
      have small : n < 10 := by omega
      rw [Nat.log_of_lt small]
      cases bound <;> simp [countDigits]
    · rw [ih (by rw [pow_succ] at few; omega) single, Nat.log_div_base]
      have : 0 < Nat.log 10 n := Nat.log_pos (by decide) (by omega)
      omega

/-- The digits that are skipped are there. -/
theorem skipped_le (n : Nat) (positive : n ≠ 0) : tens (n.log2 * 3010 / 10000 : Nat) ≤ n := by
  have key : (10 : Nat) ^ 3010 ≤ 2 ^ 10000 := by decide +kernel
  have low : 2 ^ n.log2 ≤ n := Nat.log2_self_le positive
  refine le_trans ?_ low
  show 10 ^ (Int.toNat (n.log2 * 3010 / 10000 : Nat)) ≤ _
  rw [Int.toNat_natCast]
  refine (Nat.pow_le_pow_iff_left (n := 10000) (by decide)).mp ?_
  calc (10 ^ (n.log2 * 3010 / 10000)) ^ 10000
      = 10 ^ (n.log2 * 3010 / 10000 * 10000) := (pow_mul _ _ _).symm
    _ ≤ 10 ^ (3010 * n.log2) := Nat.pow_le_pow_right (by decide) (by omega)
    _ = (10 ^ 3010) ^ n.log2 := pow_mul _ _ _
    _ ≤ (2 ^ 10000) ^ n.log2 := Nat.pow_le_pow_left key _
    _ = (2 ^ n.log2) ^ 10000 := by rw [← pow_mul, ← pow_mul, Nat.mul_comm]

theorem digitCount_eq {n : Nat} (positive : n ≠ 0) : digitCount n = Nat.log 10 n + 1 := by
  have fits := skipped_le n positive
  simp only [digitCount]
  generalize n.log2 * 3010 / 10000 = s at fits ⊢
  rw [show tens (s : Nat) = 10 ^ s by simp [tens]] at fits ⊢
  have nonzero : n / 10 ^ s ≠ 0 := (Nat.div_pos fits (by positivity)).ne'
  have few : n / 10 ^ s < 10 ^ (n.log2 + 1) :=
    calc n / 10 ^ s ≤ n := Nat.div_le_self _ _
      _ < 2 ^ (n.log2 + 1) := Nat.lt_log2_self
      _ ≤ 10 ^ (n.log2 + 1) := Nat.pow_le_pow_left (by decide) _
  rw [countDigits_eq _ few nonzero, Nat.log_div_base_pow]
  have : s ≤ Nat.log 10 n := Nat.le_log_of_pow_le (by decide) fits
  omega

/-! ## The value -/

def unit (neg : Bool) : ℚ := if neg then -1 else 1

@[simp] theorem unit_false : unit false = 1 := rfl
@[simp] theorem unit_true : unit true = -1 := rfl

theorem unit_not (neg : Bool) : unit (!neg) = -unit neg := by cases neg <;> simp

theorem unit_xor (a b : Bool) : unit (a != b) = unit a * unit b := by cases a <;> cases b <;> simp

theorem abs_unit (neg : Bool) : |unit neg| = 1 := by cases neg <;> simp

theorem inUnits_cast (x : Decimal) {e : Int} (le : e ≤ x.exp) :
    ((x.inUnits e : Int) : ℚ) = unit x.neg * x.coeff * (10 : ℚ) ^ (x.exp - e) := by
  have power := tens_cast (e := x.exp - e) (by omega)
  unfold inUnits
  cases x.neg <;> simp [power]

theorem toRat_eq (x : Decimal) : x.toRat = unit x.neg * x.coeff * (10 : ℚ) ^ x.exp := by
  have power := tens_cast (e := -min x.exp 0) (by omega)
  simp only [toRat]
  rw [Rat.mkRat_eq_div, inUnits_cast x (min_le_left _ _), power, zpow_neg, div_inv_eq_mul,
    mul_assoc, ← zpow_add₀ (by norm_num)]
  congr 2
  omega

theorem toRat_inUnits (x : Decimal) {e : Int} (le : e ≤ x.exp) :
    x.toRat = x.inUnits e * (10 : ℚ) ^ e := by
  rw [inUnits_cast x le, toRat_eq, mul_assoc _ _ ((10 : ℚ) ^ e), ← zpow_add₀ (by norm_num)]
  congr 2
  omega

theorem abs_toRat (x : Decimal) : |x.toRat| = x.coeff * (10 : ℚ) ^ x.exp := by
  have size : (0 : ℚ) ≤ x.coeff * (10 : ℚ) ^ x.exp := by positivity
  rw [toRat_eq, mul_assoc, abs_mul, abs_unit, one_mul, abs_of_nonneg size]

theorem toRat_eq_zero_iff (x : Decimal) : x.toRat = 0 ↔ x.coeff = 0 := by
  have power : (10 : ℚ) ^ x.exp ≠ 0 := by positivity
  rw [← abs_eq_zero, abs_toRat]
  simp [power]

theorem isZero_iff (x : Decimal) : x.isZero = true ↔ x.toRat = 0 := by
  rw [toRat_eq_zero_iff]
  simp [isZero]

theorem toRat_of_isZero (neg : Bool) (e : Int) : toRat ⟨neg, 0, e⟩ = 0 :=
  (toRat_eq_zero_iff _).mpr rfl

@[simp] theorem toRat_flip (x : Decimal) : x.flip.toRat = -x.toRat := by
  rw [toRat_eq, toRat_eq]
  simp [flip, unit_not]

theorem toRat_normal (neg : Bool) (coeff : Nat) (exp : Int) :
    (normal neg coeff exp).toRat = unit neg * coeff * (10 : ℚ) ^ exp := by
  unfold normal
  split
  · rename_i zero
    rw [toRat_of_isZero, zero]
    simp
  · obtain ⟨above, value⟩ := stripZeros_value ((digitCount coeff).log2 + 1) coeff exp
    generalize stripZeros ((digitCount coeff).log2 + 1) coeff exp = stripped at above value ⊢
    have power := tens_cast (e := stripped.2 - exp) (by omega)
    have shift : (10 : ℚ) ^ stripped.2 = (10 : ℚ) ^ (stripped.2 - exp) * (10 : ℚ) ^ exp := by
      rw [← zpow_add₀ (by norm_num)]
      congr 1
      omega
    rw [toRat_eq, ← value, Nat.cast_mul, power, shift]
    ring

@[simp] theorem toRat_ofInt (n : Int) : (ofInt n).toRat = n := by
  rw [ofInt, toRat_normal]
  by_cases negative : n < 0
  · simp [negative, abs_of_neg]
  · simp [negative]
    exact not_lt.mp negative

@[simp] theorem toRat_zero : (0 : Decimal).toRat = 0 := toRat_ofInt 0
@[simp] theorem toRat_one : (1 : Decimal).toRat = 1 := by exact_mod_cast toRat_ofInt 1

@[simp] theorem toRat_ofNat (n : Nat) [n.AtLeastTwo] :
    toRat (no_index (OfNat.ofNat n)) = OfNat.ofNat n := by
  exact_mod_cast toRat_ofInt n

/-! ## Order -/

theorem adjusted_le {x : Decimal} (nonzero : x.coeff ≠ 0) :
    (10 : ℚ) ^ x.adjusted ≤ |x.toRat| := by
  have low : (10 : ℚ) ^ Nat.log 10 x.coeff ≤ x.coeff := by
    exact_mod_cast Nat.pow_log_le_self 10 nonzero
  rw [abs_toRat, adjusted, digitCount_eq nonzero,
    show x.exp + ((Nat.log 10 x.coeff + 1 : Nat) : Int) - 1 = (Nat.log 10 x.coeff : Int) + x.exp by
      push_cast; ring,
    zpow_add₀ (by norm_num), zpow_natCast]
  exact mul_le_mul_of_nonneg_right low (by positivity)

theorem lt_adjusted (x : Decimal) : |x.toRat| < (10 : ℚ) ^ (x.adjusted + 1) := by
  rw [abs_toRat]
  by_cases zero : x.coeff = 0
  · rw [zero, Nat.cast_zero, zero_mul]
    positivity
  have high : (x.coeff : ℚ) < (10 : ℚ) ^ (Nat.log 10 x.coeff + 1) := by
    exact_mod_cast Nat.lt_pow_succ_log_self (by decide) x.coeff
  rw [adjusted, digitCount_eq zero, show x.exp + ((Nat.log 10 x.coeff + 1 : Nat) : Int) - 1 + 1 =
    ((Nat.log 10 x.coeff + 1 : Nat) : Int) + x.exp by ring, zpow_add₀ (by norm_num), zpow_natCast]
  exact mul_lt_mul_of_pos_right high (by positivity)

/-- Two comparisons agree if they agree on what is below and on what is above. -/
theorem compare_congr {α β : Type} [LinearOrder α] [LinearOrder β] {a b : α} {c d : β}
    (below : a < b ↔ c < d) (above : b < a ↔ d < c) : compare a b = compare c d := by
  rcases lt_trichotomy a b with h | h | h
  · rw [compare_lt_iff_lt.mpr h, compare_lt_iff_lt.mpr (below.mp h)]
  · have hc : ¬ c < d := fun lt => h.not_lt (below.mpr lt)
    have hd : ¬ d < c := fun lt => h.not_gt (above.mpr lt)
    rw [compare_eq_iff_eq.mpr h, compare_eq_iff_eq.mpr (le_antisymm (not_lt.mp hd) (not_lt.mp hc))]
  · rw [compare_gt_iff_gt.mpr h, compare_gt_iff_gt.mpr (above.mp h)]

theorem compareSize_eq {x y : Decimal} (hx : x.coeff ≠ 0) (hy : y.coeff ≠ 0) :
    compareSize x y = compare |x.toRat| |y.toRat| := by
  have far {u v : Decimal} (hv : v.coeff ≠ 0) (lt : u.adjusted < v.adjusted) :
      |u.toRat| < |v.toRat| :=
    calc |u.toRat| < (10 : ℚ) ^ (u.adjusted + 1) := lt_adjusted u
      _ ≤ (10 : ℚ) ^ v.adjusted := zpow_le_zpow_right₀ (by norm_num) (by omega)
      _ ≤ |v.toRat| := adjusted_le hv
  unfold compareSize
  split
  · have ten : (0 : ℚ) < 10 ^ (min x.exp y.exp) := by positivity
    have scale (z : Decimal) (le : min x.exp y.exp ≤ z.exp) : |z.toRat| =
        ((z.coeff * tens (z.exp - min x.exp y.exp) : Nat) : ℚ) * 10 ^ (min x.exp y.exp) := by
      rw [abs_toRat, Nat.cast_mul, tens_cast (by omega), mul_assoc, ← zpow_add₀ (by norm_num)]
      congr 2
      omega
    rw [scale x (min_le_left _ _), scale y (min_le_right _ _)]
    refine compare_congr ?_ ?_ <;> rw [mul_lt_mul_iff_left₀ ten, Nat.cast_lt]
  · rename_i other
    rcases lt_or_gt_of_ne other with h | h
    · exact compare_congr (iff_of_true h (far hy h)) (iff_of_false h.not_gt (far hy h).not_gt)
    · exact compare_congr (iff_of_false h.not_gt (far hx h).not_gt) (iff_of_true h (far hx h))

theorem sign_eq (x : Decimal) : x.sign = SignType.sign x.toRat := by
  unfold sign
  split
  · rename_i zero
    simp [(toRat_eq_zero_iff x).mpr zero]
  · rename_i nonzero
    have size : (0 : ℚ) < x.coeff * (10 : ℚ) ^ x.exp := by positivity
    rw [toRat_eq]
    cases x.neg
    · simp [sign_pos, size]
    · simp only [unit_true, if_true]
      rw [sign_neg (by linarith)]
      rfl

/-- The order of numbers is that of their values. -/
theorem compare_eq (x y : Decimal) : x.compare y = compare x.toRat y.toRat := by
  have nonzero {z : Decimal} (h : z.toRat ≠ 0) : z.coeff ≠ 0 := mt (toRat_eq_zero_iff z).mpr h
  unfold Decimal.compare
  rw [sign_eq, sign_eq]
  rcases lt_trichotomy x.toRat 0 with hx | hx | hx <;>
    rcases lt_trichotomy y.toRat 0 with hy | hy | hy
  · rw [sign_neg hx, sign_neg hy, compareSize_eq (nonzero hy.ne) (nonzero hx.ne), abs_of_neg hx,
      abs_of_neg hy]
    exact compare_congr neg_lt_neg_iff neg_lt_neg_iff
  · rw [sign_neg hx, hy, sign_zero]
    exact compare_congr (iff_of_true (by decide) hx) (iff_of_false (by decide) hx.not_gt)
  · have lt := hx.trans hy
    rw [sign_neg hx, sign_pos hy]
    exact compare_congr (iff_of_true (by decide) lt) (iff_of_false (by decide) lt.not_gt)
  · rw [hx, sign_zero, sign_neg hy]
    exact compare_congr (iff_of_false (by decide) hy.not_gt) (iff_of_true (by decide) hy)
  · rw [hx, hy]
    simp
  · rw [hx, sign_zero, sign_pos hy]
    exact compare_congr (iff_of_true (by decide) hy) (iff_of_false (by decide) hy.not_gt)
  · have lt := hy.trans hx
    rw [sign_pos hx, sign_neg hy]
    exact compare_congr (iff_of_false (by decide) lt.not_gt) (iff_of_true (by decide) lt)
  · rw [sign_pos hx, hy, sign_zero]
    exact compare_congr (iff_of_false (by decide) hx.not_gt) (iff_of_true (by decide) hx)
  · rw [sign_pos hx, sign_pos hy, compareSize_eq (nonzero hx.ne') (nonzero hy.ne'), abs_of_pos hx,
      abs_of_pos hy]
    rfl

theorem lt_iff (x y : Decimal) : x < y ↔ x.toRat < y.toRat := by
  show x.compare y = .lt ↔ _
  rw [compare_eq, compare_lt_iff_lt]

theorem le_iff (x y : Decimal) : x ≤ y ↔ x.toRat ≤ y.toRat := by
  show x.compare y ≠ .gt ↔ _
  rw [compare_eq, compare_le_iff_le]

theorem sameValue_iff (x y : Decimal) : x.sameValue y = true ↔ x.toRat = y.toRat := by
  simp [sameValue, compare_eq]

theorem toRat_min (x y : Decimal) : (min x y).toRat = min x.toRat y.toRat := by
  show (if y < x then y else x).toRat = _
  split <;> rename_i h <;> rw [lt_iff] at h
  · rw [min_eq_right h.le]
  · rw [min_eq_left (not_lt.mp h)]

theorem toRat_max (x y : Decimal) : (max x y).toRat = max x.toRat y.toRat := by
  show (if x < y then y else x).toRat = _
  split <;> rename_i h <;> rw [lt_iff] at h
  · rw [max_eq_right h.le]
  · rw [max_eq_left (not_lt.mp h)]

theorem toRat_positiveOrZero (x : Decimal) : x.positiveOrZero.toRat = max x.toRat 0 := by
  rw [positiveOrZero, toRat_max, toRat_zero]

end Decimal

end Lending
