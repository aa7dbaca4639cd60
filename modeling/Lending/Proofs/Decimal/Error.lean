/-
  Lending.Proofs.Decimal.Error — how far a chain of operations is from the exact result.

  `Within k x v`: the figure `x` has the sign of the exact value `v` and falls short of it by
  at most `k` units of the 40th digit. Each cut costs one unit (`Within.truncate`), a product
  adds the units of its terms (`Within.mul`), and a sum of terms of one sign has those of the
  worse term (`Within.add`).

  Where digits are lost below the finest grid, a figure falls short by part of a step of that
  grid besides (`allowance`): `ShortBy k a x v`. Of a whole multiple of a figure nothing is lost
  there (`ShortBy.truncate_onGrid`).
-/
import Lending.Proofs.Decimal.Truncation

namespace Lending.Truncation

theorem ulp_le : ulp ≤ 1 / 10 ^ 38 := by
  unfold ulp
  norm_num

/-! ## Values that are in range -/

theorem not_underflows_zero : ¬ Underflows 0 := fun h => h.2 truncate_zero

theorem not_underflows_of_le {v : ℚ} {e : ℤ} (normal : -999999 ≤ e) (le : 10 ^ e ≤ |v|) :
    ¬ Underflows v := by
  rintro ⟨small, -⟩
  have floor : (10 : ℚ) ^ (-money.maxExponent : ℤ) ≤ 10 ^ e :=
    zpow_le_zpow_right₀ (by norm_num) normal
  linarith

/-! ## Units lost -/

def Within (k : ℕ) (x v : ℚ) : Prop := ∃ d, 0 ≤ d ∧ d ≤ k * ulp ∧ x = v * (1 - d)

theorem Within.refl (v : ℚ) : Within 0 v v := ⟨0, le_rfl, by simp, by ring⟩

theorem Within.mono {k l : ℕ} {x v : ℚ} (h : Within k x v) (le : k ≤ l) : Within l x v := by
  obtain ⟨d, low, high, rfl⟩ := h
  have : (k : ℚ) ≤ l := by exact_mod_cast le
  exact ⟨d, low, high.trans (mul_le_mul_of_nonneg_right this ulp_pos.le), rfl⟩

theorem Within.le {k : ℕ} {x v : ℚ} (h : Within k x v) (nonneg : 0 ≤ v) : x ≤ v := by
  obtain ⟨d, low, -, rfl⟩ := h
  linarith [mul_nonneg nonneg low]

theorem Within.ge {k : ℕ} {x v : ℚ} (h : Within k x v) (nonneg : 0 ≤ v) :
    (1 - k * ulp) * v ≤ x := by
  obtain ⟨d, -, high, rfl⟩ := h
  linarith [mul_le_mul_of_nonneg_left high nonneg]

theorem within_truncate {v : ℚ} (kept : ¬ Underflows v) : Within 1 (truncate v) v := by
  have above {w : ℚ} (positive : 0 < w) (kept : ¬ Underflows w) : Within 1 (truncate w) w := by
    refine ⟨(w - truncate w) / w, ?_, ?_, ?_⟩
    · exact div_nonneg (sub_nonneg.mpr (truncate_le positive.le)) positive.le
    · rw [div_le_iff₀ positive]
      simpa using sub_truncate_le positive.le kept
    · field_simp
      ring
  rcases lt_trichotomy v 0 with h | rfl | h
  · obtain ⟨d, low, high, value⟩ := above (neg_pos.mpr h) (mt underflows_neg.mp kept)
    refine ⟨d, low, high, ?_⟩
    rw [truncate_neg] at value
    linarith
  · exact ⟨0, le_rfl, by simpa using ulp_pos.le, by simp⟩
  · exact above h kept

theorem Within.trans {k l : ℕ} {x v w : ℚ} (h : Within k x v) (h' : Within l v w)
    (few : l * ulp ≤ 1) : Within (k + l) x w := by
  obtain ⟨d, d_low, d_high, rfl⟩ := h
  obtain ⟨e, e_low, e_high, rfl⟩ := h'
  refine ⟨d * (1 - e) + e, ?_, ?_, by ring⟩
  · exact add_nonneg (mul_nonneg d_low (by linarith)) e_low
  · push_cast
    linarith [mul_nonneg d_low e_low]

/-- Two figures near one exact value are near each other. -/
theorem Within.abs_sub_le_abs {k l : ℕ} {x y v : ℚ} (hx : Within k x v) (hy : Within l y v)
    (hk : k ≤ 5) (hl : l ≤ 5) : |x - y| ≤ 1 / 10 ^ 38 * |y| := by
  obtain ⟨d, d_low, d_high, rfl⟩ := hx.mono hk
  obtain ⟨e, e_low, e_high, rfl⟩ := hy.mono hl
  rw [ulp_eq] at d_high e_high
  norm_num at d_high e_high
  have factor : |e - d| ≤ 1 / 10 ^ 38 * |1 - e| := by
    rw [abs_of_nonneg (by linarith : 0 ≤ 1 - e), abs_le]
    constructor <;> linarith
  rw [show v * (1 - d) - v * (1 - e) = v * (e - d) by ring, abs_mul, abs_mul]
  linarith [mul_le_mul_of_nonneg_left factor (abs_nonneg v)]

theorem Within.truncate {k : ℕ} {x v : ℚ} (h : Within k x v) (kept : ¬ Underflows x) :
    Within (k + 1) (truncate x) v := by
  obtain ⟨d, d_low, d_high, rfl⟩ := h
  obtain ⟨e, e_low, e_high, value⟩ := within_truncate kept
  have e_high' : e ≤ ulp := by simpa using e_high
  refine ⟨d * (1 - e) + e, ?_, ?_, by rw [value]; ring⟩
  · have : e ≤ 1 := e_high'.trans (ulp_le.trans (by norm_num))
    exact add_nonneg (mul_nonneg d_low (by linarith)) e_low
  · push_cast
    linarith [mul_nonneg d_low e_low]

/-- A cut of a figure that is far from where digits are lost; the bound survives it. -/
theorem Within.truncate_large {k : ℕ} {x v : ℚ} {e : ℤ} (h : Within k x v) (normal : -999999 ≤ e)
    (le : 10 ^ e ≤ x) :
    Within (k + 1) (Truncation.truncate x) v ∧ 10 ^ e ≤ Truncation.truncate x := by
  have positive : (0 : ℚ) < 10 ^ e := by positivity
  refine ⟨h.truncate (not_underflows_of_le normal ?_), ?_⟩
  · rwa [abs_of_pos (positive.trans_le le)]
  · have least : money.leastExponent ≤ e := by
      have : money.leastExponent = -1000038 := rfl
      omega
    exact (representable_zpow least).le_truncate le

theorem Within.mul_right {k : ℕ} {x v : ℚ} (h : Within k x v) (y : ℚ) :
    Within k (x * y) (v * y) := by
  obtain ⟨d, low, high, rfl⟩ := h
  exact ⟨d, low, high, by ring⟩

theorem Within.mul {k l : ℕ} {x v y w : ℚ} (hx : Within k x v) (hy : Within l y w)
    (few : l * ulp ≤ 1) : Within (k + l) (x * y) (v * w) := by
  have first := hx.mul_right y
  have second := hy.mul_right v
  rw [mul_comm y, mul_comm w] at second
  exact first.trans second few

theorem Within.div_right {k : ℕ} {x v : ℚ} (h : Within k x v) (y : ℚ) :
    Within k (x / y) (v / y) := by
  rw [div_eq_mul_inv, div_eq_mul_inv]
  exact h.mul_right _

/-- A cut quotient by a cut divisor, times what was cut to the divisor: a unit less by the one
    cut, or a unit more by the other. -/
theorem abs_div_mul_sub_le {x w d s : ℚ} (hx : 0 ≤ x) (hw : 0 < w) (hd : Within 1 d w)
    (hs : Within 1 s (x / d)) : |s * w - x| ≤ 2 * ulp * x := by
  obtain ⟨c, c_low, c_high, rfl⟩ := hd
  obtain ⟨e, e_low, e_high, rfl⟩ := hs
  have unit : ulp ≤ 1 / 2 := ulp_le.trans (by norm_num)
  push_cast at c_high e_high
  have c_lt : 0 < 1 - c := by linarith
  have product : x / (w * (1 - c)) * (1 - e) * w * (1 - c) = x * (1 - e) := by field_simp
  have nonneg : 0 ≤ x / (w * (1 - c)) * (1 - e) * w := by
    have quotient : 0 ≤ x / (w * (1 - c)) := div_nonneg hx (mul_pos hw c_lt).le
    exact mul_nonneg (mul_nonneg quotient (by linarith)) hw.le
  generalize x / (w * (1 - c)) * (1 - e) * w = t at product nonneg
  have less := mul_le_mul_of_nonneg_left e_high hx
  have more := mul_le_mul_of_nonneg_left c_high nonneg
  have twice : t ≤ 2 * x := by
    have half := mul_le_mul_of_nonneg_left unit nonneg
    linarith [mul_nonneg hx e_low]
  have slack := mul_le_mul_of_nonneg_left twice ulp_pos.le
  rw [abs_le]
  constructor <;> linarith [mul_nonneg hx e_low, mul_nonneg nonneg c_low, mul_nonneg ulp_pos.le hx]

/-- Terms of one sign: the sum is no worse than the worse of them. -/
theorem Within.add {k : ℕ} {x v y w : ℚ} (hx : Within k x v) (hy : Within k y w)
    (hv : 0 ≤ v) (hw : 0 ≤ w) : Within k (x + y) (v + w) := by
  rcases (add_nonneg hv hw).eq_or_lt with none | some
  · have v_zero : v = 0 := by linarith
    have w_zero : w = 0 := by linarith
    obtain ⟨d, low, high, rfl⟩ := hx
    obtain ⟨e, -, -, rfl⟩ := hy
    exact ⟨d, low, high, by rw [v_zero, w_zero]; ring⟩
  · have lost : v + w - (x + y) ≤ k * ulp * (v + w) := by linarith [hx.ge hv, hy.ge hw]
    have below : x + y ≤ v + w := add_le_add (hx.le hv) (hy.le hw)
    refine ⟨(v + w - (x + y)) / (v + w), ?_, ?_, ?_⟩
    · exact div_nonneg (by linarith) some.le
    · rwa [div_le_iff₀ some]
    · field_simp
      ring

/-- Terms that are near multiples of one number of any sign: so is their sum. -/
theorem Within.sum_mul {k : ℕ} {unit : ℚ} {xs vs : List ℚ}
    (h : List.Forall₂ (fun x v => 0 ≤ v ∧ Within k x (v * unit)) xs vs) :
    0 ≤ vs.sum ∧ Within k xs.sum (vs.sum * unit) := by
  -- the counts of the unit are what is near, and they have one sign
  suffices 0 ≤ vs.sum ∧ ∃ s, xs.sum = s * unit ∧ Within k s vs.sum by
    obtain ⟨nonneg, s, sum, near⟩ := this
    exact ⟨nonneg, sum ▸ near.mul_right unit⟩
  induction h with
  | nil => exact ⟨le_rfl, 0, by simp, (Within.refl 0).mono (Nat.zero_le k)⟩
  | cons first _ ih =>
    obtain ⟨nonneg, d, low, high, rfl⟩ := first
    obtain ⟨rest_nonneg, s, sum, near⟩ := ih
    rw [List.sum_cons, List.sum_cons]
    have total := Within.add ⟨d, low, high, rfl⟩ near nonneg rest_nonneg
    refine ⟨add_nonneg nonneg rest_nonneg, _, ?_, total⟩
    rw [sum]
    ring

/-! ## Where digits are lost -/

instance (v : ℚ) : Decidable (Underflows v) := instDecidableAnd

/-- What a cut may take off a value besides a unit of it. -/
def allowance (v : ℚ) : ℚ := if Underflows v then 10 ^ money.leastExponent else 0

theorem allowance_of_not_underflows {v : ℚ} (kept : ¬ Underflows v) : allowance v = 0 :=
  if_neg kept

theorem allowance_nonneg (v : ℚ) : 0 ≤ allowance v := by
  unfold allowance
  split
  · positivity
  · exact le_rfl

theorem allowance_le (v : ℚ) : allowance v ≤ 10 ^ money.leastExponent := by
  unfold allowance
  split
  · exact le_rfl
  · positivity

theorem sub_truncate_le_add_allowance {v : ℚ} (h : 0 ≤ v) :
    v - truncate v ≤ ulp * v + allowance v := by
  unfold allowance
  split
  · rename_i underflow
    have lost := lt_truncate_add h
    have finest : grid v = money.leastExponent := by
      have small := underflow.1
      rcases h.eq_or_lt with rfl | positive
      · exact absurd underflow not_underflows_zero
      · have nonzero := abs_pos.mpr positive.ne'
        have place := (Int.lt_zpow_iff_log_lt (b := 10) (by decide) nonzero).mp small
        have top : (money.maxExponent : ℤ) = 999999 := rfl
        rw [grid_eq]
        exact max_eq_right (by omega)
    rw [finest] at lost
    linarith [mul_nonneg ulp_pos.le h]
  · rename_i kept
    rw [add_zero]
    exact sub_truncate_le h kept

/-- The figure `x` is not above the exact value `v`, and short of it by `k` units of it and an
    amount of `a` at most. -/
structure ShortBy (k : ℕ) (a x v : ℚ) : Prop where
  nonneg : 0 ≤ x
  le : x ≤ v
  lost : v - x ≤ k * ulp * v + a

namespace ShortBy

variable {k l : ℕ} {a b x y v w : ℚ}

theorem refl (h : 0 ≤ v) : ShortBy 0 0 v v := ⟨h, le_rfl, by simp⟩

theorem mono (h : ShortBy k a x v) (units : k ≤ l) (le : a ≤ b) : ShortBy l b x v := by
  refine ⟨h.nonneg, h.le, h.lost.trans (add_le_add ?_ le)⟩
  have units' : (k : ℚ) ≤ l := by exact_mod_cast units
  exact mul_le_mul_of_nonneg_right (mul_le_mul_of_nonneg_right units' ulp_pos.le)
    (h.nonneg.trans h.le)

theorem truncate (h : ShortBy k a x v) : ShortBy (k + 1) (a + allowance x) (truncate x) v := by
  refine ⟨truncate_nonneg h.nonneg, (truncate_le h.nonneg).trans h.le, ?_⟩
  have cut := sub_truncate_le_add_allowance h.nonneg
  have unit := mul_le_mul_of_nonneg_left h.le ulp_pos.le
  push_cast
  linarith [h.lost]

theorem truncate_onGrid (h : ShortBy k a x v) (figure : OnGrid x) :
    ShortBy (k + 1) a (Truncation.truncate x) v := by
  have cut := h.truncate
  rwa [allowance_of_not_underflows figure.not_underflows, add_zero] at cut

theorem mul_right (h : ShortBy k a x v) (hy : 0 ≤ y) : ShortBy k (a * y) (x * y) (v * y) := by
  refine ⟨mul_nonneg h.nonneg hy, mul_le_mul_of_nonneg_right h.le hy, ?_⟩
  linarith [mul_le_mul_of_nonneg_right h.lost hy]

theorem div_right (h : ShortBy k a x v) (hy : 0 ≤ y) : ShortBy k (a / y) (x / y) (v / y) := by
  simp only [div_eq_mul_inv]
  exact h.mul_right (inv_nonneg.mpr hy)

theorem add (hx : ShortBy k a x v) (hy : ShortBy k b y w) :
    ShortBy k (a + b) (x + y) (v + w) := by
  refine ⟨add_nonneg hx.nonneg hy.nonneg, add_le_add hx.le hy.le, ?_⟩
  linarith [hx.lost, hy.lost]

end ShortBy

end Lending.Truncation
