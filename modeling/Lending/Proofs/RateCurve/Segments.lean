/-
  Lending.Proofs.RateCurve.Segments — a curve runs through its points, and straight between.

  Stored coordinates are whole numbers of basis points, so their differences, and the products
  of those, are figures that no cut changes. At its right end a segment therefore gives the
  rate of that point itself (`lineAt_end`), and on the way there it strays from the straight
  line by four units of the last digit of the two rates together (`abs_lineAt_sub_line_le`).

  The scan stops on the first segment that ends at the utilization or to the right of it
  (`segmentRate_eq`), and past the first point there is one up to the last (`exists_segment`).
  So the scan never runs out of segments, and never stops on a vertical one.
-/
import Lending.Proofs.RateCurve.Ends
import Lending.Proofs.Reserve.Openable

namespace Lending

open Outcome Truncation

/-! ## Basis points -/

def IsBpsShare (x : ℚ) : Prop := ∃ n : ℤ, 0 ≤ n ∧ n < 2 ^ 32 ∧ x = n / 10000

namespace IsBpsShare

variable {x y z w : ℚ}

theorem nonneg (hx : IsBpsShare x) : 0 ≤ x := by
  obtain ⟨n, low, -, rfl⟩ := hx
  exact div_nonneg (by exact_mod_cast low) (by norm_num)

theorem le (hx : IsBpsShare x) : x ≤ 2 ^ 32 := by
  obtain ⟨n, -, high, rfl⟩ := hx
  have : (n : ℚ) < 2 ^ 32 := by exact_mod_cast high
  linarith

theorem representable (hx : IsBpsShare x) : Representable x := by
  obtain ⟨n, low, high, rfl⟩ := hx
  refine ⟨n, -4, ?_, by decide, by norm_num [div_eq_mul_inv]⟩
  rw [abs_of_nonneg low]
  omega

section
variable (hx : IsBpsShare x) (hy : IsBpsShare y)
include hx hy

theorem exists_sub : ∃ n : ℤ, |n| < 2 ^ 32 ∧ x - y = n / 10000 := by
  obtain ⟨n, n_low, n_high, rfl⟩ := hx
  obtain ⟨m, m_low, m_high, rfl⟩ := hy
  refine ⟨n - m, ?_, by push_cast; ring⟩
  rw [abs_lt]
  constructor <;> omega

theorem truncate_sub : truncate (x - y) = x - y := by
  obtain ⟨n, few, value⟩ := exists_sub hx hy
  refine Representable.truncate_eq ⟨n, -4, few.trans (by norm_num), by decide, ?_⟩
  rw [value]
  norm_num [div_eq_mul_inv]

theorem truncate_mul_sub (hz : IsBpsShare z) (hw : IsBpsShare w) :
    truncate ((x - y) * (z - w)) = (x - y) * (z - w) := by
  obtain ⟨n, n_few, n_value⟩ := exists_sub hx hy
  obtain ⟨m, m_few, m_value⟩ := exists_sub hz hw
  refine Representable.truncate_eq ⟨n * m, -8, ?_, by decide, ?_⟩
  · rw [abs_mul]
    calc |n| * |m| ≤ 2 ^ 32 * 2 ^ 32 :=
          mul_le_mul n_few.le m_few.le (abs_nonneg m) (by norm_num)
      _ < 10 ^ 40 := by norm_num
  · rw [n_value, m_value]
    push_cast
    norm_num
    ring

theorem le_abs_sub (apart : x ≠ y) : 1 / 10000 ≤ |x - y| := by
  obtain ⟨n, -, value⟩ := exists_sub hx hy
  have some : n ≠ 0 := by
    rintro rfl
    rw [Int.cast_zero, zero_div] at value
    exact apart (sub_eq_zero.mp value)
  have whole : (1 : ℚ) ≤ |(n : ℚ)| := by exact_mod_cast Int.one_le_abs some
  rw [value, abs_div, abs_of_pos (by norm_num : (0 : ℚ) < 10000)]
  exact div_le_div_of_nonneg_right whole (by norm_num)

end

end IsBpsShare

namespace ControlPoint

structure Narrow (c : ControlPoint) : Prop where
  utilization : 0 ≤ c.utilizationBps ∧ c.utilizationBps < 2 ^ 32
  rate : 0 ≤ c.borrowRateBps ∧ c.borrowRateBps < 2 ^ 32

instance (c : ControlPoint) : Decidable c.Narrow :=
  decidable_of_iff (_ ∧ _) ⟨fun h => ⟨h.1, h.2⟩, fun h => ⟨h.utilization, h.rate⟩⟩

def IsAt (c : ControlPoint) (p : RatePoint) : Prop :=
  p.utilization.toRat = c.utilizationBps / 10000 ∧ p.rate.toRat = c.borrowRateBps / 10000

end ControlPoint

structure RatePoint.IsBps (p : RatePoint) : Prop where
  utilization : IsBpsShare p.utilization.toRat
  rate : IsBpsShare p.rate.toRat

namespace RatePoint.IsBps

theorem exact {p : RatePoint} (h : p.IsBps) : p.Exact :=
  ⟨h.utilization.representable, h.rate.representable⟩

theorem unsigned {p : RatePoint} (h : p.IsBps) : p.Unsigned := by
  have small {x : ℚ} (hx : IsBpsShare x) : x < Decimal.limit := by
    have le := hx.le
    linarith [two_pow_le_wordLimit, ten_mul_wordLimit]
  exact ⟨h.exact, h.utilization.nonneg, small h.utilization, h.rate.nonneg, small h.rate⟩

end RatePoint.IsBps

/-! ## One segment -/

namespace RateCurve

def line (p q : RatePoint) (u : ℚ) : ℚ :=
  p.rate.toRat + (q.rate.toRat - p.rate.toRat) * (u - p.utilization.toRat) /
    (q.utilization.toRat - p.utilization.toRat)

section
variable {rise part run : ℚ}

/-- A part of the rise, each step cut, lies between nothing and the whole of it. -/
theorem gain_between (rise : ℚ) (run_pos : 0 < run) (nonneg : 0 ≤ part) (le : part ≤ run) :
    min 0 rise ≤ truncate (truncate (rise * truncate part) / run) ∧
      truncate (truncate (rise * truncate part) / run) ≤ max 0 rise := by
  have part_nonneg := truncate_nonneg nonneg
  have part_le := (truncate_le nonneg).trans le
  rcases le_total 0 rise with rises | falls
  · have product := mul_nonneg rises part_nonneg
    have product_le := (truncate_le product).trans (mul_le_mul_of_nonneg_left part_le rises)
    have quotient := div_nonneg (truncate_nonneg product) run_pos.le
    rw [min_eq_left rises, max_eq_right rises]
    exact ⟨truncate_nonneg quotient,
      (truncate_le quotient).trans ((div_le_iff₀ run_pos).mpr product_le)⟩
  · obtain ⟨product_ge, product⟩ :=
      le_truncate_of_nonpos (mul_nonpos_of_nonpos_of_nonneg falls part_nonneg)
    have whole := (mul_le_mul_of_nonpos_left part_le falls).trans product_ge
    obtain ⟨quotient_ge, quotient⟩ :=
      le_truncate_of_nonpos (div_nonpos_of_nonpos_of_nonneg product run_pos.le)
    rw [min_eq_right falls, max_eq_left falls]
    exact ⟨((le_div_iff₀ run_pos).mpr whole).trans quotient_ge, quotient⟩

/-- Three steps are cut, and each loses a unit of the rise at most. A rise of some basis points
    is far from where digits are lost; of no rise there is nothing to lose. -/
theorem abs_gain_sub_le (rise_large : rise ≠ 0 → 1 / 10000 ≤ |rise|) (run_large : 1 / 10000 ≤ run)
    (nonneg : 0 ≤ part) (le : part ≤ run) :
    |truncate (truncate (rise * truncate part) / run) - rise * part / run| ≤ 3 * ulp * |rise| := by
  have run_pos : 0 < run := by linarith
  by_cases level : rise = 0
  · simp [level]
  have rise_large := rise_large level
  have part_lost : |truncate part - part| ≤ ulp * run :=
    abs_truncate_sub_le_of_normal (by rwa [abs_of_nonneg nonneg]) (normal_of_large (by linarith))
  have product_le : |rise * truncate part| ≤ |rise| * run := by
    rw [abs_mul, abs_of_nonneg (truncate_nonneg nonneg)]
    exact mul_le_mul_of_nonneg_left ((truncate_le nonneg).trans le) (abs_nonneg rise)
  have product_lost := abs_truncate_sub_le_of_normal product_le
    (normal_of_large (by nlinarith))
  have quotient_le : |truncate (rise * truncate part) / run| ≤ |rise| := by
    rw [abs_div, abs_of_pos run_pos, div_le_iff₀ run_pos]
    exact (abs_truncate_le _).trans product_le
  have quotient_lost := abs_truncate_sub_le_of_normal quotient_le (normal_of_large (by linarith))
  generalize truncate (rise * truncate part) = product at *
  have product_share : |product / run - rise * truncate part / run| ≤ ulp * |rise| := by
    rw [← sub_div, abs_div, abs_of_pos run_pos, div_le_iff₀ run_pos, mul_assoc]
    exact product_lost
  have part_share : |rise * truncate part / run - rise * part / run| ≤ ulp * |rise| := by
    rw [← sub_div, ← mul_sub, abs_div, abs_mul, abs_of_pos run_pos, div_le_iff₀ run_pos]
    calc |rise| * |truncate part - part| ≤ |rise| * (ulp * run) :=
          mul_le_mul_of_nonneg_left part_lost (abs_nonneg rise)
      _ = ulp * |rise| * run := by ring
  calc |truncate (product / run) - rise * part / run|
      ≤ |truncate (product / run) - product / run| +
          |product / run - rise * truncate part / run| +
          |rise * truncate part / run - rise * part / run| :=
        (abs_sub_le _ (rise * truncate part / run) _).trans
          (add_le_add_left (abs_sub_le _ (product / run) _) _)
    _ ≤ ulp * |rise| + ulp * |rise| + ulp * |rise| :=
        add_le_add (add_le_add quotient_lost product_share) part_share
    _ = 3 * ulp * |rise| := by ring

end

section
variable {p q : RatePoint} (hp : p.IsBps) (hq : q.IsBps)
  (apart : p.utilization.toRat < q.utilization.toRat)
include hp hq apart

/-- A segment ends in its right point. -/
theorem lineAt_end : lineAt p q q.utilization.toRat = q.rate.toRat := by
  have run : q.utilization.toRat - p.utilization.toRat ≠ 0 := (sub_pos.mpr apart).ne'
  unfold lineAt
  rw [hq.rate.truncate_sub hp.rate, hq.utilization.truncate_sub hp.utilization,
    hq.rate.truncate_mul_sub hp.rate hq.utilization hp.utilization, mul_div_cancel_right₀ _ run,
    hq.rate.truncate_sub hp.rate, add_sub_cancel, hq.rate.representable.truncate_eq]

/-- The last sum is that of two figures, and between the rates of the ends. -/
theorem abs_lineAt_sub_line_le {u : ℚ} (from_p : p.utilization.toRat ≤ u)
    (to_q : u ≤ q.utilization.toRat) :
    |lineAt p q u - line p q u| ≤ 4 / 10 ^ 39 * (p.rate.toRat + q.rate.toRat) := by
  have p_nonneg := hp.rate.nonneg
  have q_nonneg := hq.rate.nonneg
  have run := hq.utilization.le_abs_sub hp.utilization apart.ne'
  rw [abs_of_pos (sub_pos.mpr apart)] at run
  have part_nonneg := sub_nonneg.mpr from_p
  have part_le := sub_le_sub_right to_q p.utilization.toRat
  have lost := abs_gain_sub_le
    (fun sloped => hq.rate.le_abs_sub hp.rate (sub_ne_zero.mp sloped)) run part_nonneg part_le
  obtain ⟨low, high⟩ := gain_between (q.rate.toRat - p.rate.toRat) (by linarith)
    part_nonneg part_le
  unfold line lineAt
  rw [hq.rate.truncate_sub hp.rate, hq.utilization.truncate_sub hp.utilization]
  generalize hgain : truncate (truncate ((q.rate.toRat - p.rate.toRat) *
    truncate (u - p.utilization.toRat)) / (q.utilization.toRat - p.utilization.toRat)) = gain at *
  have sum : |truncate (p.rate.toRat + gain) - (p.rate.toRat + gain)| ≤
      ulp * (p.rate.toRat + q.rate.toRat) := by
    have figures : OnGrid (p.rate.toRat + gain) :=
      hp.rate.representable.onGrid.add (hgain ▸ onGrid_truncate _)
    refine figures.abs_truncate_sub_le (abs_le.mpr ⟨?_, ?_⟩)
    · rcases min_cases 0 (q.rate.toRat - p.rate.toRat) with ⟨h, -⟩ | ⟨h, -⟩ <;> linarith
    · rcases max_cases 0 (q.rate.toRat - p.rate.toRat) with ⟨h, -⟩ | ⟨h, -⟩ <;> linarith
  have rise_le : |q.rate.toRat - p.rate.toRat| ≤ p.rate.toRat + q.rate.toRat := by
    rw [abs_le]
    constructor <;> linarith
  rw [ulp_eq] at sum lost
  refine (abs_sub_le _ (p.rate.toRat + gain) _).trans ?_
  rw [add_sub_add_left_eq_sub]
  linarith

end

/-! ## The scan -/

section
variable {u beyond : Decimal}

/-- A scan stops on the first segment that does not end to the left of the utilization. -/
theorem segmentRate_eq {first p q : RatePoint} {rest before after : List RatePoint}
    (split : first :: rest = before ++ p :: q :: after)
    (left : ∀ c ∈ before, c.utilization.toRat < u.toRat)
    (from_p : p.utilization.toRat < u.toRat) (to_q : u.toRat ≤ q.utilization.toRat) :
    segmentRate u beyond first rest = interpolate p q u := by
  induction before generalizing first rest with
  | nil =>
    cases split
    unfold segmentRate
    rw [if_pos, if_neg]
    · rw [Decimal.sameValue_iff]
      exact (from_p.trans_le to_q).ne'
    · rw [Decimal.le_iff, Decimal.le_iff]
      exact ⟨from_p.le, to_q⟩
  | cons c before ih =>
    obtain ⟨rfl, tail⟩ := List.cons_eq_cons.mp split
    obtain ⟨-, left⟩ := List.forall_mem_cons.mp left
    cases rest with
    | nil => simp at tail
    | cons second rest =>
      -- the segment from the first point ends in one that is to the left, too
      have next : second.utilization.toRat < u.toRat := by
        cases before with
        | nil =>
          cases tail
          exact from_p
        | cons d before =>
          cases tail
          exact left second List.mem_cons_self
      unfold segmentRate
      rw [if_neg]
      · exact ih tail left
      · rw [Decimal.le_iff, Decimal.le_iff, not_and, not_le]
        exact fun _ => next

abbrev lastPoint (first : RatePoint) (rest : List RatePoint) : RatePoint :=
  (first :: rest).getLast (List.cons_ne_nil first rest)

/-- Between the first point and the last there is such a segment. -/
theorem exists_segment {first : RatePoint} {rest : List RatePoint}
    (inside : first.utilization.toRat < u.toRat)
    (reached : u.toRat ≤ (lastPoint first rest).utilization.toRat) :
    ∃ before p q after, first :: rest = before ++ p :: q :: after ∧
      (∀ c ∈ before, c.utilization.toRat < u.toRat) ∧ p.utilization.toRat < u.toRat ∧
      u.toRat ≤ q.utilization.toRat := by
  induction rest generalizing first with
  | nil => exact absurd reached (not_le.mpr inside)
  | cons second rest ih =>
    by_cases ends : u.toRat ≤ second.utilization.toRat
    · exact ⟨[], first, second, rest, rfl, List.forall_mem_nil _, inside, ends⟩
    · rw [lastPoint, List.getLast_cons_cons] at reached
      obtain ⟨before, p, q, after, split, left, here⟩ := ih (not_le.mp ends) reached
      exact ⟨first :: before, p, q, after, congrArg (first :: ·) split,
        List.forall_mem_cons.mpr ⟨inside, left⟩, here⟩

end

theorem rateAt_cons (first : RatePoint) (rest : List RatePoint) (u : Decimal) :
    rateAt (first :: rest) u =
      if u ≤ first.utilization then .ok first.rate
      else if (lastPoint first rest).utilization ≤ u then .ok (lastPoint first rest).rate
      else segmentRate u (lastPoint first rest).rate first rest := rfl

def Rightward (curve : RateCurve) : Prop :=
  curve.Pairwise fun p q => p.utilization.toRat ≤ q.utilization.toRat

/-- How the rates of a curve run through its points and between them. -/
structure FollowsPoints (first : RatePoint) (rest : List RatePoint) : Prop where
  /-- At the utilization of a point the rate is that of the first point there, but at the right
      end of a curve that has a width it is that of the last. -/
  at_point : ∀ u p, (first :: rest).find? (·.utilization.sameValue u) = some p →
    ∃ r, rateAt (first :: rest) u = .ok r ∧ r.toRat =
      if u.toRat = (lastPoint first rest).utilization.toRat ∧
        first.utilization.toRat ≠ (lastPoint first rest).utilization.toRat
      then (lastPoint first rest).rate.toRat else p.rate.toRat
  /-- Between neighbours the rate is between theirs, and next to the straight line. -/
  between : ∀ before p q after, first :: rest = before ++ p :: q :: after →
    ∀ u, p.utilization < u → u < q.utilization →
      ∃ r, rateAt (first :: rest) u = .ok r ∧ r.toRat ∈ Set.uIcc p.rate.toRat q.rate.toRat ∧
        |r.toRat - line p q u.toRat| ≤ 4 / 10 ^ 39 * (p.rate.toRat + q.rate.toRat)
  /-- Where the scan is asked for, it stops on a segment, whatever the rate beyond all. -/
  stops : ∀ u, ¬ u ≤ first.utilization → ¬ (lastPoint first rest).utilization ≤ u →
      ∃ before p q after, first :: rest = before ++ p :: q :: after ∧ p.utilization < u ∧
        u ≤ q.utilization ∧ ∀ beyond, segmentRate u beyond first rest = interpolate p q u

section
variable {u : Decimal}

/-- A point that is looked for by its utilization. -/
theorem find_spec {curve : RateCurve} {p : RatePoint}
    (found : curve.find? (·.utilization.sameValue u) = some p) :
    p ∈ curve ∧ p.utilization.toRat = u.toRat :=
  ⟨List.mem_of_find?_eq_some found, (Decimal.sameValue_iff _ _).mp
    (List.find?_some (p := fun c : RatePoint => c.utilization.sameValue u) found)⟩

theorem exists_lineAt {p q : RatePoint} (hp : p.IsBps) (hq : q.IsBps)
    (from_p : p.utilization.toRat < u.toRat) (to_q : u.toRat ≤ q.utilization.toRat) :
    ∃ r, interpolate p q u = .ok r ∧ r.toRat = lineAt p q u.toRat := by
  obtain ⟨r, hr⟩ : ∃ r, interpolate p q u = .ok r := by
    refine exists_interpolate hp.unsigned hq.unsigned from_p.le to_q (from_p.trans_le to_q) ?_
    have rise_le : |q.rate.toRat - p.rate.toRat| ≤ 2 ^ 32 := by
      rw [abs_le]
      constructor <;> linarith [hp.rate.nonneg, hp.rate.le, hq.rate.nonneg, hq.rate.le]
    have part_le : u.toRat - p.utilization.toRat ≤ 2 ^ 32 := by
      linarith [hp.utilization.nonneg, hq.utilization.le]
    calc |q.rate.toRat - p.rate.toRat| * (u.toRat - p.utilization.toRat)
        ≤ 2 ^ 32 * 2 ^ 32 :=
          mul_le_mul rise_le part_le (sub_nonneg.mpr from_p.le) (by norm_num)
      _ < 2 ^ 128 := by norm_num
      _ ≤ wordLimit := two_pow_le_wordLimit
      _ < Decimal.limit := lt_limit_of_le_wordLimit le_rfl
  exact ⟨r, hr, interpolate_value hr⟩

variable {first p q : RatePoint} {rest before after : List RatePoint}
  (split : first :: rest = before ++ p :: q :: after)
include split

/-- Inside of the curve the rate is worked out on a segment. -/
theorem rateAt_eq_interpolate (left : ∀ c ∈ before, c.utilization.toRat < u.toRat)
    (from_p : p.utilization.toRat < u.toRat) (to_q : u.toRat ≤ q.utilization.toRat)
    (outside : ¬ u ≤ first.utilization) (beyond : ¬ (lastPoint first rest).utilization ≤ u) :
    rateAt (first :: rest) u = interpolate p q u := by
  rw [rateAt_cons, if_neg outside, if_neg beyond]
  exact segmentRate_eq split left from_p to_q

/-- The first point at a utilization is the one where the scan stops. -/
theorem eq_of_find {c : RatePoint} (rightward : Rightward (first :: rest))
    (left : ∀ c ∈ before, c.utilization.toRat < u.toRat)
    (from_p : p.utilization.toRat < u.toRat) (to_q : u.toRat ≤ q.utilization.toRat)
    (found : (first :: rest).find? (·.utilization.sameValue u) = some c) : c = q := by
  obtain ⟨listed, here⟩ := find_spec found
  unfold Rightward at rightward
  rw [split] at rightward listed found
  obtain ⟨-, later, -⟩ := List.pairwise_append.mp rightward
  obtain ⟨q_before, -⟩ := List.pairwise_cons.mp (List.pairwise_cons.mp later).2
  have q_here : q.utilization.toRat = u.toRat := by
    refine le_antisymm ?_ to_q
    rcases List.mem_append.mp listed with earlier | listed
    · exact absurd here (left c earlier).ne
    rcases List.mem_cons.mp listed with rfl | listed
    · exact absurd here from_p.ne
    rcases List.mem_cons.mp listed with rfl | beyond
    · exact here.le
    · exact (q_before c beyond).trans here.le
  have found_q : (before ++ p :: q :: after).find? (·.utilization.sameValue u) = some q := by
    refine List.find?_eq_some_iff_append.mpr ⟨(Decimal.sameValue_iff _ _).mpr q_here,
      before ++ [p], after, by simp, fun d listed => ?_⟩
    have d_left : d.utilization.toRat < u.toRat := by
      rcases List.mem_append.mp listed with earlier | own
      · exact left d earlier
      · rwa [List.mem_singleton.mp own]
    rw [Bool.not_eq_true', ← Bool.not_eq_true, Decimal.sameValue_iff]
    exact d_left.ne
  exact Option.some.inj (found.symm.trans found_q)

end

section
variable {first : RatePoint} {rest : List RatePoint} (points : ∀ p ∈ first :: rest, p.IsBps)
  (rightward : Rightward (first :: rest))

include points rightward

theorem followsPoints : FollowsPoints first rest where
  at_point u p found := by
    obtain ⟨listed, here⟩ := find_spec found
    by_cases outside : u ≤ first.utilization
    · -- the first point is the one that is found
      have first_le := rightward.rel_head_of_rel_head_head listed le_rfl
      have at_first : first.utilization.toRat = u.toRat :=
        le_antisymm (first_le.trans here.le) ((Decimal.le_iff _ _).mp outside)
      rw [List.find?_cons_of_pos (p := fun c : RatePoint => c.utilization.sameValue u)
        ((Decimal.sameValue_iff _ _).mpr at_first)] at found
      cases found
      refine ⟨first.rate, by rw [rateAt_cons, if_pos outside], ?_⟩
      rw [if_neg fun far => far.2 (at_first.trans far.1)]
    by_cases beyond : (lastPoint first rest).utilization ≤ u
    · have at_last : u.toRat = (lastPoint first rest).utilization.toRat := by
        refine le_antisymm ?_ ((Decimal.le_iff _ _).mp beyond)
        exact here.ge.trans (rightward.rel_getLast_of_rel_getLast_getLast listed le_rfl)
      have wide : first.utilization.toRat ≠ (lastPoint first rest).utilization.toRat :=
        fun flat => outside ((Decimal.le_iff _ _).mpr (at_last.trans flat.symm).le)
      refine ⟨(lastPoint first rest).rate, ?_, ?_⟩
      · rw [rateAt_cons, if_neg outside, if_pos beyond]
      · rw [if_pos ⟨at_last, wide⟩]
    · have inside := outside
      have within := beyond
      rw [Decimal.le_iff, not_le] at inside within
      obtain ⟨before, q, r, after, split, left, from_q, to_r⟩ := exists_segment inside within.le
      obtain rfl := eq_of_find split rightward left from_q to_r found
      have listed_q : q ∈ first :: rest := by simp [split]
      obtain ⟨x, hx, value⟩ := exists_lineAt (points q listed_q) (points p listed) from_q to_r
      refine ⟨x, (rateAt_eq_interpolate split left from_q to_r outside beyond).trans hx, ?_⟩
      rw [if_neg fun far => within.ne far.1, value, ← here]
      exact lineAt_end (points q listed_q) (points p listed) (from_q.trans_le to_r)
  between before p q after split u from_p to_q := by
    rw [Decimal.lt_iff] at from_p to_q
    have hp := points p (by simp [split])
    have hq := points q (by simp [split])
    have sorted : Rightward (before ++ p :: q :: after) := split ▸ rightward
    have left : ∀ c ∈ before, c.utilization.toRat < u.toRat := fun c listed =>
      ((List.pairwise_append.mp sorted).2.2 c listed p List.mem_cons_self).trans_lt from_p
    have outside : ¬ u ≤ first.utilization := by
      rw [Decimal.le_iff, not_le]
      exact (rightward.rel_head_of_rel_head_head (by simp [split]) le_rfl).trans_lt from_p
    have beyond : ¬ (lastPoint first rest).utilization ≤ u := by
      rw [Decimal.le_iff, not_le]
      exact to_q.trans_le (rightward.rel_getLast_of_rel_getLast_getLast (by simp [split]) le_rfl)
    obtain ⟨x, hx, value⟩ := exists_lineAt hp hq from_p to_q.le
    refine ⟨x, (rateAt_eq_interpolate split left from_p to_q.le outside beyond).trans hx, ?_⟩
    rw [value]
    exact ⟨lineAt_mem_uIcc hp.exact hq.exact from_p.le to_q.le,
      abs_lineAt_sub_line_le hp hq (from_p.trans to_q) from_p.le to_q.le⟩
  stops u outside beyond := by
    rw [Decimal.le_iff, not_le] at outside beyond
    obtain ⟨before, p, q, after, split, left, from_p, to_q⟩ := exists_segment outside beyond.le
    exact ⟨before, p, q, after, split, (Decimal.lt_iff _ _).mpr from_p,
      (Decimal.le_iff _ _).mpr to_q, fun beyond => segmentRate_eq split left from_p to_q⟩

end

end RateCurve

/-! ## Stored curves -/

namespace ControlPoint

theorem Narrow.exists_toRatePoint {c : ControlPoint} (narrow : c.Narrow) :
    ∃ p, c.toRatePoint = .ok p := by
  have word := isWord_of_lt narrow.utilization.1 (narrow.utilization.2.trans (by norm_num))
  obtain ⟨p, hp, -⟩ := Stored.exists_toRatePoint ⟨word, narrow.rate⟩
  exact ⟨p, hp⟩

theorem Narrow.isAt {c : ControlPoint} {p : RatePoint} (narrow : c.Narrow)
    (h : c.toRatePoint = .ok p) : c.IsAt p := by
  have share {n : ℤ} (few : 0 ≤ n ∧ n < 2 ^ 32) : truncate (n / 10000 : ℚ) = n / 10000 :=
    (IsBpsShare.representable ⟨n, few.1, few.2, rfl⟩).truncate_eq
  obtain ⟨utilization, rate⟩ := c.toRatePoint_value h
  exact ⟨utilization.trans (share narrow.utilization), rate.trans (share narrow.rate)⟩

theorem IsAt.isBps {c : ControlPoint} {p : RatePoint} (h : c.IsAt p) (narrow : c.Narrow) :
    p.IsBps :=
  ⟨⟨_, narrow.utilization.1, narrow.utilization.2, h.1⟩, ⟨_, narrow.rate.1, narrow.rate.2, h.2⟩⟩

end ControlPoint

namespace RateCurve

open ControlPoint

/-- A curve through stored points of which none is to the left of the one before, whatever their
    rates, runs through them as they are, and straight between them. -/
theorem exists_followsPoints {points : List ControlPoint}
    (rightward : (withoutPadding points).Pairwise fun c d => c.utilizationBps ≤ d.utilizationBps)
    (narrow : ∀ c ∈ withoutPadding points, c.Narrow) :
    ∃ curve, ofControlPoints points = .ok curve ∧
      List.Forall₂ IsAt (withoutPadding points) curve ∧
      ∀ first rest, curve = first :: rest → FollowsPoints first rest := by
  obtain ⟨curve, h⟩ := exists_curve fun c kept => (narrow c kept).exists_toRatePoint
  have placed : List.Forall₂ IsAt (withoutPadding points) curve := by
    rw [ofControlPoints_eq_mapM, mapM_eq_ok_iff] at h
    have both := (List.forall₂_and_left _ _).mpr ⟨narrow, h⟩
    exact both.imp fun c p given => given.1.isAt given.2
  refine ⟨curve, h, placed, ?_⟩
  rintro first rest rfl
  refine followsPoints (fun p listed => ?_) ?_
  · obtain ⟨c, kept, hp⟩ := exists_stored h listed
    exact ((narrow c kept).isAt hp).isBps (narrow c kept)
  · refine pairwise_ofControlPoints h rightward fun c d p q hp hq le => ?_
    rw [(c.toRatePoint_value hp).1, (d.toRatePoint_value hq).1]
    exact truncate_mono (div_le_div_of_nonneg_right (by exact_mod_cast le) (by norm_num))

def steppedPoints : List ControlPoint :=
  [⟨0, 100⟩, ⟨5000, 400⟩, ⟨5000, 900⟩, ⟨10000, 300⟩, ⟨0, 0⟩]

def stepped : RateCurve :=
  [⟨0, ⟨false, 1, -2⟩⟩, ⟨⟨false, 5, -1⟩, ⟨false, 4, -2⟩⟩, ⟨⟨false, 5, -1⟩, ⟨false, 9, -2⟩⟩,
    ⟨1, ⟨false, 3, -2⟩⟩]

theorem ofControlPoints_steppedPoints : ofControlPoints steppedPoints = .ok stepped := by
  decide +kernel

/-- At half use the rate is the one below the jump; above, it is between 9 % and 3 %. -/
theorem exists_followsPoints_stepped :
    (∃ r, stepped.rateAt ⟨false, 5, -1⟩ = .ok r ∧ r.toRat = 4 / 100) ∧
      ∃ r, stepped.rateAt ⟨false, 7, -1⟩ = .ok r ∧
        r.toRat ∈ Set.uIcc (9 / 100 : ℚ) (3 / 100) := by
  have narrow : ∀ c ∈ withoutPadding steppedPoints, c.Narrow := by decide
  obtain ⟨curve, given, -, follows⟩ := exists_followsPoints (by decide) narrow
  cases given.symm.trans ofControlPoints_steppedPoints
  have follows := follows _ _ rfl
  constructor
  · obtain ⟨r, hr, value⟩ := follows.at_point ⟨false, 5, -1⟩ _ rfl
    exact ⟨r, hr, value.trans (by decide +kernel)⟩
  · obtain ⟨r, hr, band, -⟩ := follows.between
      [⟨0, ⟨false, 1, -2⟩⟩, ⟨⟨false, 5, -1⟩, ⟨false, 4, -2⟩⟩] _ _ _ rfl ⟨false, 7, -1⟩
      (by decide) (by decide)
    have low : (⟨false, 9, -2⟩ : Decimal).toRat = 9 / 100 := by decide +kernel
    have high : (⟨false, 3, -2⟩ : Decimal).toRat = 3 / 100 := by decide +kernel
    rw [low, high] at band
    exact ⟨r, hr, band⟩

end RateCurve

end Lending
