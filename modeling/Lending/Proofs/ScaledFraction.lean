/-
  Lending.Proofs.ScaledFraction — what stored fractions decode to.

  `decode_value`: a fraction that decodes is not negative, and its value is the quotient by
  the scale, cut like every figure. `le_of_decode_pos`: a fraction that is not zero is far
  above the range where products lose digits. Any count below the limit of money figures is
  decoded (`exists_decoded`).
-/
import Lending.Proofs.Decimal.Normal
import Lending.ScaledFraction

namespace Lending.ScaledFraction

open Truncation

def scale : ℚ := 1152921504606847000

theorem toRat_fractionScale : fractionScale.toRat = scale := by
  rw [Decimal.toRat_eq, scale, fractionScale]
  norm_num

theorem scale_pos : 0 < scale := by norm_num [scale]

theorem one_le_scale : 1 ≤ scale := by norm_num [scale]

theorem count_div_nonneg {raw : ℤ} (nonneg : 0 ≤ raw) : 0 ≤ (raw : ℚ) / scale :=
  div_nonneg (by exact_mod_cast nonneg) scale_pos.le

def decoded (raw : ℤ) : ℚ := truncate (raw / scale)

theorem decode_of_nonneg {raw : ℤ} (nonneg : 0 ≤ raw) :
    decode raw = Decimal.ofInt raw.toNat / fractionScale := by
  unfold decode ofInt
  rw [if_pos nonneg]
  rfl

theorem decode_value {raw : ℤ} {x : Decimal} (h : decode raw = .ok x) :
    0 ≤ raw ∧ x.toRat = truncate (raw / scale) := by
  by_cases nonneg : 0 ≤ raw
  · refine ⟨nonneg, ?_⟩
    rw [decode_of_nonneg nonneg] at h
    obtain ⟨-, value⟩ := div_value h
    rw [value, Decimal.toRat_ofInt, toRat_fractionScale, Int.toNat_of_nonneg nonneg]
  · unfold decode ofInt at h
    rw [if_neg nonneg] at h
    split at h <;> cases h

theorem decode_nonneg {raw : ℤ} {x : Decimal} (h : decode raw = .ok x) : 0 ≤ x.toRat := by
  obtain ⟨nonneg, value⟩ := decode_value h
  rw [value]
  exact truncate_nonneg (count_div_nonneg nonneg)

theorem decode_result {raw : ℤ} {x : Decimal} (h : decode raw = .ok x) : x.Result := by
  obtain ⟨f, -, h⟩ := Outcome.bind_eq_ok_iff.mp h
  exact div_result h

theorem representable_decode {raw : ℤ} {x : Decimal} (h : decode raw = .ok x) :
    Representable x.toRat := (decode_result h).exact

theorem decode_overflowOnly {raw : ℤ} (nonneg : 0 ≤ raw) : (decode raw).OverflowOnly := by
  rw [decode_of_nonneg nonneg]
  refine div_overflowOnly _ ?_
  rw [toRat_fractionScale]
  exact scale_pos.ne'

theorem exists_decoded {raw : ℤ} (nonneg : 0 ≤ raw) (room : raw / scale < Decimal.limit) :
    ∃ x, decode raw = .ok x ∧ x.toRat = decoded raw := by
  obtain ⟨x, read⟩ : ∃ x, decode raw = .ok x := by
    have units : (Decimal.ofInt raw.toNat).toRat = raw := by
      rw [Decimal.toRat_ofInt, Int.toNat_of_nonneg nonneg]
    rw [decode_of_nonneg nonneg]
    refine exists_div ?_ ?_
    · rw [toRat_fractionScale]
      exact scale_pos.ne'
    · rwa [units, toRat_fractionScale, abs_of_nonneg (count_div_nonneg nonneg)]
  exact ⟨x, read, (decode_value read).2⟩

theorem ofLimbs_nonneg {limbs : List ℤ} (h : ∀ limb ∈ limbs, 0 ≤ limb) : 0 ≤ ofLimbs limbs := by
  induction limbs with
  | nil => exact le_rfl
  | cons limb rest ih =>
    have low := h limb List.mem_cons_self
    have high := ih fun l hl => h l (List.mem_cons_of_mem _ hl)
    show 0 ≤ ofLimbs rest * limbBase + limb
    have : 0 ≤ ofLimbs rest * limbBase := mul_nonneg high (by decide)
    omega

theorem decodeLimbs_overflowOnly {limbs : List ℤ} (h : ∀ limb ∈ limbs, 0 ≤ limb) :
    (decodeLimbs limbs).OverflowOnly := decode_overflowOnly (ofLimbs_nonneg h)

/-- A stored fraction is far above the range where digits are lost. -/
theorem le_of_decode {raw : ℤ} {x : Decimal} (h : decode raw = .ok x) (counted : 1 ≤ raw) :
    (10 : ℚ) ^ (-19 : ℤ) ≤ x.toRat := by
  have counted : (1 : ℚ) ≤ raw := by exact_mod_cast counted
  rw [(decode_value h).2]
  refine Representable.le_truncate ⟨1, -19, by norm_num, by decide, by norm_num⟩ ?_
  rw [scale, le_div_iff₀ (by norm_num)]
  norm_num
  linarith

theorem toRat_eq_zero_iff {raw : ℤ} {x : Decimal} (h : decode raw = .ok x) :
    x.toRat = 0 ↔ raw = 0 := by
  obtain ⟨nonneg, value⟩ := decode_value h
  constructor
  · intro zero
    by_contra some
    have low := le_of_decode h (by omega)
    rw [zero] at low
    exact absurd low (by norm_num)
  · rintro rfl
    rw [value, Int.cast_zero, zero_div, truncate_zero]

theorem le_of_decode_pos {raw : ℤ} {x : Decimal} (h : decode raw = .ok x) (positive : 0 < x.toRat) :
    (10 : ℚ) ^ (-19 : ℤ) ≤ x.toRat := by
  have some := mt (toRat_eq_zero_iff h).mpr positive.ne'
  have nonneg := (decode_value h).1
  exact le_of_decode h (by omega)

/-- A count of units is either zero or far above the range where digits are lost. -/
theorem not_underflows_count {raw : ℤ} (nonneg : 0 ≤ raw) : ¬ Underflows (raw / scale) := by
  rcases nonneg.eq_or_lt with rfl | one
  · simpa using not_underflows_zero
  · have counted : (1 : ℚ) ≤ raw := by exact_mod_cast one
    refine not_underflows_of_le (by norm_num : -999999 ≤ (-19 : ℤ)) ?_
    rw [abs_of_nonneg (count_div_nonneg nonneg), le_div_iff₀ scale_pos, scale]
    norm_num
    linarith

theorem within_decode {raw : ℤ} {x : Decimal} (h : decode raw = .ok x) :
    Within 1 x.toRat (raw / scale) := by
  obtain ⟨nonneg, value⟩ := decode_value h
  rw [value]
  exact within_truncate (not_underflows_count nonneg)

end Lending.ScaledFraction
