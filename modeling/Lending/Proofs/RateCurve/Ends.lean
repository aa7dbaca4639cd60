/-
  Lending.Proofs.RateCurve.Ends — a curve through rising points stays between its ends.

  If neither coordinate falls from one stored point to the next, the curve is sorted, since
  cutting a share never reverses an order (`sorted_ofControlPoints`). So no rate is below that
  of the first point or above that of the last, and a higher utilization never gives a lower
  rate (`rates_between_ends`). An overflow alone can keep a rate from being given
  (`rateAt_overflowOnly`), and for that the largest rate times the largest utilization has to
  be one (`gainsInRange_of_product`).
-/
import Lending.Proofs.RateCurve

namespace Lending

open Outcome Truncation

/-! ## Stored points -/

namespace ControlPoint

def Below (c d : ControlPoint) : Prop :=
  c.utilizationBps ≤ d.utilizationBps ∧ c.borrowRateBps ≤ d.borrowRateBps

instance (c d : ControlPoint) : Decidable (c.Below d) := instDecidableAnd

def Unsigned (c : ControlPoint) : Prop := 0 ≤ c.utilizationBps ∧ 0 ≤ c.borrowRateBps

instance (c : ControlPoint) : Decidable c.Unsigned := instDecidableAnd

theorem Below.toRatePoint {c d : ControlPoint} {p q : RatePoint} (below : c.Below d)
    (hp : c.toRatePoint = .ok p) (hq : d.toRatePoint = .ok q) : p.Below q := by
  have share {m n : ℤ} (le : m ≤ n) : truncate (m / 10000) ≤ truncate (n / 10000) :=
    truncate_mono (div_le_div_of_nonneg_right (by exact_mod_cast le) (by norm_num))
  obtain ⟨p_utilization, p_rate⟩ := c.toRatePoint_value hp
  obtain ⟨q_utilization, q_rate⟩ := d.toRatePoint_value hq
  unfold RatePoint.Below
  rw [p_utilization, p_rate, q_utilization, q_rate]
  exact ⟨share below.1, share below.2⟩

theorem Unsigned.toRatePoint {c : ControlPoint} {p : RatePoint} (unsigned : c.Unsigned)
    (h : c.toRatePoint = .ok p) (results : p.utilization.Result ∧ p.rate.Result) :
    p.Unsigned := by
  have share {n : ℤ} (nonneg : 0 ≤ n) : 0 ≤ truncate (n / 10000) :=
    truncate_nonneg (div_nonneg (by exact_mod_cast nonneg) (by norm_num))
  obtain ⟨utilization, rate⟩ := c.toRatePoint_value h
  exact ⟨exact_toRatePoint h, utilization ▸ share unsigned.1,
    (le_abs_self _).trans_lt results.1.size, rate ▸ share unsigned.2,
    (le_abs_self _).trans_lt results.2.size⟩

end ControlPoint

namespace RateCurve

open ControlPoint

section
variable {points : List ControlPoint} {curve : RateCurve}
  (h : ofControlPoints points = .ok curve)
include h

/-- What holds between stored points holds between the points of the curve. -/
theorem pairwise_ofControlPoints {S : ControlPoint → ControlPoint → Prop}
    {T : RatePoint → RatePoint → Prop} (stored : (withoutPadding points).Pairwise S)
    (each : ∀ c d p q, c.toRatePoint = .ok p → d.toRatePoint = .ok q → S c d → T p q) :
    curve.Pairwise T := by
  rw [ofControlPoints_eq_mapM, mapM_eq_ok_iff] at h
  generalize withoutPadding points = kept at h stored
  induction h with
  | nil => exact .nil
  | cons first rest ih =>
    obtain ⟨own, others⟩ := List.pairwise_cons.mp stored
    refine .cons (fun q listed => ?_) (ih others)
    obtain ⟨d, d_listed, hd⟩ := exists_of_mem_mapM (mapM_eq_ok_iff.mpr rest) listed
    exact each _ _ _ _ first hd (own d d_listed)

theorem sorted_ofControlPoints (rising : (withoutPadding points).Pairwise Below) :
    curve.Sorted :=
  pairwise_ofControlPoints h rising fun _ _ _ _ hp hq below => below.toRatePoint hp hq

theorem unsigned_ofControlPoints (unsigned : ∀ c ∈ withoutPadding points, c.Unsigned) :
    ∀ p ∈ curve, p.Unsigned := by
  intro p listed
  obtain ⟨c, stored, hp⟩ := exists_stored h listed
  exact (unsigned c stored).toRatePoint hp (results_ofControlPoints h p listed)

end

/-! ## Overflow -/

/-- On a segment that is not vertical nothing is divided by zero. -/
theorem interpolate_overflowOnly {p q : RatePoint} (hp : p.Exact) (hq : q.Exact) (u : Decimal)
    (apart : p.utilization.toRat < q.utilization.toRat) : (interpolate p q u).OverflowOnly := by
  unfold interpolate
  refine (sub_overflowOnly _ _).bind fun rise _ => (sub_overflowOnly _ _).bind fun part _ =>
    (mul_overflowOnly _ _).bind fun gain _ => (sub_overflowOnly _ _).bind fun run hrun =>
    (div_overflowOnly _ ?_).bind fun share _ => add_overflowOnly _ _
  rw [sub_value hrun]
  exact ((hq.utilization.onGrid.sub hp.utilization.onGrid).truncate_pos (sub_pos.mpr apart)).ne'

theorem rateAt_overflowOnly {curve : RateCurve} (nonempty : curve ≠ [])
    (exact : ∀ p ∈ curve, p.Exact) (u : Decimal) : (curve.rateAt u).OverflowOnly := by
  rcases rateAt_cases nonempty u with ⟨p, -, own⟩ | ⟨p, hp, q, hq, -, -, apart, sloped⟩
  · exact .of_eq own
  · rw [sloped]
    exact interpolate_overflowOnly (exact p hp) (exact q hq) u apart

/-! ## Between the ends -/

section
variable {first : RatePoint} {rest : List RatePoint} (sorted : Sorted (first :: rest))
include sorted

theorem gainsInRange_of_product (unsigned : ∀ p ∈ first :: rest, p.Unsigned)
    (product : ((first :: rest).getLast (List.cons_ne_nil first rest)).rate.toRat *
      ((first :: rest).getLast (List.cons_ne_nil first rest)).utilization.toRat < Decimal.limit)
    (u : Decimal) : GainsInRange (first :: rest) u := by
  intro p hp q hq from_p to_q
  have p_below := List.Pairwise.rel_getLast sorted hp
  have q_below := List.Pairwise.rel_getLast sorted hq
  have p_nonneg := (unsigned p hp).rate_nonneg
  have q_nonneg := (unsigned q hq).rate_nonneg
  refine lt_of_le_of_lt (mul_le_mul ?_ ?_ (sub_nonneg.mpr from_p) ?_) product
  · refine abs_le.mpr ⟨?_, ?_⟩ <;> linarith [p_below.2, q_below.2]
  · linarith [q_below.1, (unsigned p hp).utilization_nonneg]
  · exact p_nonneg.trans p_below.2

end

/-- On a curve through points of which none is to the left of the one before or below it, the
    rate does not fall as the utilization rises, and stays between those of the first and the
    last point. It is given unless an amount could not hold the largest rate times the largest
    utilization. -/
theorem rates_between_ends {points : List ControlPoint} {curve : RateCurve}
    (h : ofControlPoints points = .ok curve) (nonempty : withoutPadding points ≠ [])
    (rising : (withoutPadding points).Pairwise Below)
    (unsigned : ∀ c ∈ withoutPadding points, c.Unsigned) :
    ∃ first last, curve.head? = some first ∧ curve.getLast? = some last ∧
      (∀ u, (∃ r, curve.rateAt u = .ok r ∧ first.rate ≤ r ∧ r ≤ last.rate) ∨
        (curve.rateAt u = .error .overflow ∧
          Decimal.limit ≤ last.rate.toRat * last.utilization.toRat)) ∧
      ∀ u u', u ≤ u' → ∀ r r', curve.rateAt u = .ok r → curve.rateAt u' = .ok r' → r ≤ r' := by
  have sorted := sorted_ofControlPoints h rising
  have exact := exact_ofControlPoints h
  have points_unsigned := unsigned_ofControlPoints h unsigned
  match curve with
  | [] => exact absurd rfl (ne_nil_ofControlPoints h nonempty)
  | first :: rest =>
    have cons := List.cons_ne_nil first rest
    have ends : ∀ p ∈ first :: rest, p.rate.toRat ∈
        Set.Icc first.rate.toRat ((first :: rest).getLast cons).rate.toRat :=
      fun p listed => ⟨(List.Pairwise.rel_head sorted listed).2,
        (List.Pairwise.rel_getLast sorted listed).2⟩
    refine ⟨first, (first :: rest).getLast cons, rfl, List.getLast?_eq_some_getLast cons,
      fun u => ?_, fun u u' le r r' hr hr' => ?_⟩
    · cases given : rateAt (first :: rest) u with
      | ok r =>
        have between := rateAt_mem Set.ordConnected_Icc exact ends given
        exact .inl ⟨r, rfl, (Decimal.le_iff _ _).mpr between.1, (Decimal.le_iff _ _).mpr between.2⟩
      | error fault =>
        refine .inr ⟨by rw [rateAt_overflowOnly cons exact u fault given], ?_⟩
        by_contra small
        obtain ⟨r, hr⟩ := exists_rateAt_of_gains cons points_unsigned
          (gainsInRange_of_product sorted points_unsigned (not_le.mp small) u)
        cases given.symm.trans hr
    · rw [Decimal.le_iff] at le ⊢
      exact rateAt_mono sorted exact le hr hr'

def bentPoints : List ControlPoint :=
  [⟨0, 0⟩, ⟨8000, 800⟩, ⟨9000, 2000⟩, ⟨10000, 15000⟩, ⟨0, 0⟩]

def bent : RateCurve :=
  [⟨0, 0⟩, ⟨⟨false, 8, -1⟩, ⟨false, 8, -2⟩⟩, ⟨⟨false, 9, -1⟩, ⟨false, 2, -1⟩⟩,
    ⟨1, ⟨false, 15, -1⟩⟩]

theorem ofControlPoints_bentPoints : ofControlPoints bentPoints = .ok bent := by decide +kernel

/-- Halfway between 80 % and 90 % of use the rate is halfway between 8 % and 20 %, and halfway to
    full use it is halfway to 150 %. -/
theorem rates_between_ends_sample :
    bent.rateAt ⟨false, 85, -2⟩ = .ok ⟨false, 14, -2⟩ ∧
      bent.rateAt ⟨false, 95, -2⟩ = .ok ⟨false, 85, -2⟩ ∧
      (⟨false, 14, -2⟩ : Decimal) ≤ ⟨false, 85, -2⟩ := by
  have low : bent.rateAt ⟨false, 85, -2⟩ = .ok ⟨false, 14, -2⟩ := by decide +kernel
  have high : bent.rateAt ⟨false, 95, -2⟩ = .ok ⟨false, 85, -2⟩ := by decide +kernel
  obtain ⟨first, last, -, -, -, rises⟩ :=
    rates_between_ends ofControlPoints_bentPoints (by decide) (by decide) (by decide)
  exact ⟨low, high, rises _ _ (by decide) _ _ low high⟩

end RateCurve

end Lending
