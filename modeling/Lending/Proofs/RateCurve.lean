/-
  Lending.Proofs.RateCurve — a curve that does not fall gives no lower rate at a higher use.

  On a segment the rate is worked out in cut steps. None of them reverses an order, so it does
  not fall there (`lineAt_mono`), and since the end points are figures it stays between their
  rates (`le_lineAt`, `lineAt_le`). From one segment to a later one it therefore does not fall
  either (`rateAt_mono`). The points of stored curves are figures (`exact_ofControlPoints`).

  Whatever the order of its points, a rate is that of a point or is worked out on a segment that
  is not vertical (`rateAt_cases`). So a curve gives no rate outside of theirs (`rateAt_mem`), and
  up to full utilization it always gives one, unless it has no points (`exists_rateAt`). At
  utilizations of one value it gives rates of one value, or ends alike (`rateAt_sameValue`).
-/
import Lending.Proofs.Decimal.SameValue
import Lending.Proofs.Reserve.Opened

namespace Lending

open Outcome Truncation

/-! ## Points -/

namespace RatePoint

def Below (p q : RatePoint) : Prop :=
  p.utilization.toRat ≤ q.utilization.toRat ∧ p.rate.toRat ≤ q.rate.toRat

instance (p q : RatePoint) : Decidable (p.Below q) := instDecidableAnd

instance : Std.Refl Below := ⟨fun _ => ⟨le_rfl, le_rfl⟩⟩

structure Exact (p : RatePoint) : Prop where
  utilization : Representable p.utilization.toRat
  rate : Representable p.rate.toRat

end RatePoint

/-- A list of points without the padding after the first at full utilization. -/
def ControlPoint.withoutPadding : List ControlPoint → List ControlPoint
  | [] => []
  | c :: rest => if c.utilizationBps = fullShareBps then [c] else c :: withoutPadding rest

theorem ControlPoint.mem_of_mem_withoutPadding {points : List ControlPoint} {c : ControlPoint}
    (kept : c ∈ withoutPadding points) : c ∈ points := by
  induction points with
  | nil => exact kept
  | cons first rest ih =>
    unfold withoutPadding at kept
    split at kept
    · rw [List.mem_singleton.mp kept]
      exact List.mem_cons_self
    · exact (List.mem_cons.mp kept).elim (fun own => own ▸ List.mem_cons_self)
        fun later => List.mem_cons_of_mem _ (ih later)

theorem ControlPoint.withoutPadding_ne_nil {points : List ControlPoint} (some : points ≠ []) :
    withoutPadding points ≠ [] := by
  match points with
  | [] => exact some
  | first :: rest =>
    unfold withoutPadding
    split <;> exact List.cons_ne_nil _ _

theorem ControlPoint.toRatePoint_value {c : ControlPoint} {p : RatePoint}
    (h : c.toRatePoint = .ok p) :
    p.utilization.toRat = truncate (c.utilizationBps / 10000) ∧
      p.rate.toRat = truncate (c.borrowRateBps / 10000) := by
  unfold toRatePoint at h
  simp only [bind_eq_ok_iff] at h
  obtain ⟨utilization, hutilization, rate, hrate, h⟩ := h
  cases h
  exact ⟨shareOfBps_value hutilization, shareOfBps_value hrate⟩

theorem ControlPoint.exact_toRatePoint {c : ControlPoint} {p : RatePoint}
    (h : c.toRatePoint = .ok p) : p.Exact := by
  obtain ⟨utilization, rate⟩ := c.toRatePoint_value h
  exact ⟨utilization ▸ representable_truncate _, rate ▸ representable_truncate _⟩

namespace RateCurve

theorem ofControlPoints_eq_mapM (points : List ControlPoint) :
    ofControlPoints points =
      (ControlPoint.withoutPadding points).mapM ControlPoint.toRatePoint := by
  induction points with
  | nil => rfl
  | cons c rest ih =>
    unfold ofControlPoints ControlPoint.withoutPadding
    split
    · rw [List.mapM_cons]
      rfl
    · rw [List.mapM_cons, ih]

theorem exists_stored {points : List ControlPoint} {curve : RateCurve}
    (h : ofControlPoints points = .ok curve) {p : RatePoint} (listed : p ∈ curve) :
    ∃ c ∈ ControlPoint.withoutPadding points, c.toRatePoint = .ok p := by
  rw [ofControlPoints_eq_mapM] at h
  exact exists_of_mem_mapM h listed

theorem exists_curve {points : List ControlPoint}
    (each : ∀ c ∈ ControlPoint.withoutPadding points, ∃ p, c.toRatePoint = .ok p) :
    ∃ curve, ofControlPoints points = .ok curve := by
  rw [ofControlPoints_eq_mapM, exists_mapM_eq_ok_iff]
  exact each

theorem ne_nil_ofControlPoints {points : List ControlPoint} {curve : RateCurve}
    (h : ofControlPoints points = .ok curve) (some : ControlPoint.withoutPadding points ≠ []) :
    curve ≠ [] := by
  rw [ofControlPoints_eq_mapM, mapM_eq_ok_iff] at h
  rintro rfl
  exact some (List.forall₂_nil_right_iff.mp h)

def Sorted (curve : RateCurve) : Prop := curve.Pairwise RatePoint.Below

instance (curve : RateCurve) : Decidable curve.Sorted :=
  inferInstanceAs (Decidable (List.Pairwise _ curve))

/-- The points of a curve are stored points. -/
theorem forall_ofControlPoints {P : RatePoint → Prop} {points : List ControlPoint}
    {curve : RateCurve} (each : ∀ c ∈ points, ∀ p, c.toRatePoint = .ok p → P p)
    (h : ofControlPoints points = .ok curve) : ∀ p ∈ curve, P p := by
  intro p listed
  obtain ⟨c, stored, hp⟩ := exists_stored h listed
  exact each c (ControlPoint.mem_of_mem_withoutPadding stored) p hp

theorem exact_ofControlPoints {points : List ControlPoint} {curve : RateCurve}
    (h : ofControlPoints points = .ok curve) : ∀ p ∈ curve, p.Exact :=
  forall_ofControlPoints (fun _ _ _ => ControlPoint.exact_toRatePoint) h

/-! ## One segment -/

def lineAt (p q : RatePoint) (u : ℚ) : ℚ :=
  truncate (p.rate.toRat + truncate (truncate (truncate (q.rate.toRat - p.rate.toRat) *
    truncate (u - p.utilization.toRat)) / truncate (q.utilization.toRat - p.utilization.toRat)))

theorem interpolate_value {p q : RatePoint} {u x : Decimal} (h : interpolate p q u = .ok x) :
    x.toRat = lineAt p q u.toRat := by
  unfold interpolate at h
  simp only [bind_eq_ok_iff] at h
  obtain ⟨rise, hrise, part, hpart, gain, hgain, run, hrun, share, hshare, h⟩ := h
  rw [add_value h, (div_value hshare).2, mul_value hgain, sub_value hrise, sub_value hpart,
    sub_value hrun]
  rfl

section
variable {p q : RatePoint} (below : p.Below q)
include below

theorem rise_nonneg : 0 ≤ truncate (q.rate.toRat - p.rate.toRat) :=
  truncate_nonneg (sub_nonneg.mpr below.2)

theorem run_nonneg : 0 ≤ truncate (q.utilization.toRat - p.utilization.toRat) :=
  truncate_nonneg (sub_nonneg.mpr below.1)

theorem lineAt_mono {u v : ℚ} (le : u ≤ v) : lineAt p q u ≤ lineAt p q v := by
  have part : truncate (u - p.utilization.toRat) ≤ truncate (v - p.utilization.toRat) :=
    truncate_mono (sub_le_sub_right le _)
  have gain := truncate_mono (mul_le_mul_of_nonneg_left part (rise_nonneg below))
  have share := truncate_mono (div_le_div_of_nonneg_right gain (run_nonneg below))
  exact truncate_mono (add_le_add_right share _)

theorem le_lineAt (exact : p.Exact) {u : ℚ} (le : p.utilization.toRat ≤ u) :
    p.rate.toRat ≤ lineAt p q u := by
  have part : 0 ≤ truncate (u - p.utilization.toRat) := truncate_nonneg (sub_nonneg.mpr le)
  have gain := truncate_nonneg (mul_nonneg (rise_nonneg below) part)
  have share := truncate_nonneg (div_nonneg gain (run_nonneg below))
  exact exact.rate.le_truncate (le_add_of_nonneg_right share)

theorem lineAt_le (exact : q.Exact) {u : ℚ} (from_p : p.utilization.toRat ≤ u)
    (to_q : u ≤ q.utilization.toRat) : lineAt p q u ≤ q.rate.toRat := by
  have rise := rise_nonneg below
  have run := run_nonneg below
  have part : 0 ≤ truncate (u - p.utilization.toRat) := truncate_nonneg (sub_nonneg.mpr from_p)
  have part_le : truncate (u - p.utilization.toRat) ≤
      truncate (q.utilization.toRat - p.utilization.toRat) :=
    truncate_mono (sub_le_sub_right to_q _)
  have gain_le : truncate (truncate (q.rate.toRat - p.rate.toRat) *
      truncate (u - p.utilization.toRat)) ≤ truncate (q.rate.toRat - p.rate.toRat) *
        truncate (q.utilization.toRat - p.utilization.toRat) :=
    (truncate_le (mul_nonneg rise part)).trans (mul_le_mul_of_nonneg_left part_le rise)
  have share_le := (representable_truncate _).truncate_le (div_le_of_le_mul₀ run rise gain_le)
  have rise_le := truncate_le (sub_nonneg.mpr below.2)
  refine exact.rate.truncate_le ?_
  linarith

end

/-! ## Whole curves -/

section
variable {u v beyond x y : Decimal} {p : RatePoint} {rest : List RatePoint}

theorem segmentRate_bounds (sorted : Sorted (p :: rest)) (exact : ∀ q ∈ p :: rest, q.Exact)
    (last : ∀ q ∈ p :: rest, q.rate.toRat ≤ beyond.toRat)
    (reached : p.utilization.toRat ≤ u.toRat) (h : segmentRate u beyond p rest = .ok x) :
    p.rate.toRat ≤ x.toRat ∧ x.toRat ≤ beyond.toRat := by
  induction rest generalizing p with
  | nil =>
    cases h
    exact ⟨last p List.mem_cons_self, le_rfl⟩
  | cons q rest ih =>
    obtain ⟨own, others⟩ := List.pairwise_cons.mp sorted
    have below : p.Below q := own q List.mem_cons_self
    obtain ⟨p_exact, exact⟩ := List.forall_mem_cons.mp exact
    obtain ⟨p_last, last⟩ := List.forall_mem_cons.mp last
    unfold segmentRate at h
    simp only [Decimal.le_iff, Decimal.sameValue_iff] at h
    split at h
    · rename_i here
      split at h
      · cases h
        exact ⟨le_rfl, p_last⟩
      · rw [interpolate_value h]
        have high := lineAt_le below (exact q List.mem_cons_self) reached here.2
        exact ⟨le_lineAt below p_exact reached, high.trans (last q List.mem_cons_self)⟩
    · rename_i further
      have beyond_q := not_le.mp fun within => further ⟨reached, within⟩
      obtain ⟨low, high⟩ := ih others exact last beyond_q.le h
      exact ⟨below.2.trans low, high⟩

theorem segmentRate_mono (sorted : Sorted (p :: rest)) (exact : ∀ q ∈ p :: rest, q.Exact)
    (last : ∀ q ∈ p :: rest, q.rate.toRat ≤ beyond.toRat)
    (reached : p.utilization.toRat ≤ u.toRat) (le : u.toRat ≤ v.toRat)
    (hu : segmentRate u beyond p rest = .ok x) (hv : segmentRate v beyond p rest = .ok y) :
    x.toRat ≤ y.toRat := by
  induction rest generalizing p with
  | nil =>
    cases hu
    cases hv
    exact le_rfl
  | cons q rest ih =>
    obtain ⟨own, others⟩ := List.pairwise_cons.mp sorted
    have below : p.Below q := own q List.mem_cons_self
    obtain ⟨p_exact, exact⟩ := List.forall_mem_cons.mp exact
    obtain ⟨p_last, last⟩ := List.forall_mem_cons.mp last
    unfold segmentRate at hu hv
    simp only [Decimal.le_iff, Decimal.sameValue_iff] at hu hv
    by_cases v_here : v.toRat ≤ q.utilization.toRat
    · -- both on this segment
      rw [if_pos ⟨reached.trans le, v_here⟩] at hv
      rw [if_pos ⟨reached, le.trans v_here⟩] at hu
      split at hu
      · rename_i vertical
        rw [if_pos vertical] at hv
        cases hu
        cases hv
        exact le_rfl
      · rename_i sloped
        rw [if_neg sloped] at hv
        rw [interpolate_value hu, interpolate_value hv]
        exact lineAt_mono below le
    · rw [if_neg fun here => v_here here.2] at hv
      rw [not_le] at v_here
      by_cases u_here : u.toRat ≤ q.utilization.toRat
      · -- the end of this segment is between them
        obtain ⟨low, -⟩ := segmentRate_bounds others exact last v_here.le hv
        rw [if_pos ⟨reached, u_here⟩] at hu
        refine le_trans ?_ low
        split at hu
        · cases hu
          exact below.2
        · rw [interpolate_value hu]
          exact lineAt_le below (exact q List.mem_cons_self) reached u_here
      · rw [if_neg fun here => u_here here.2] at hu
        exact ih others exact last (not_le.mp u_here).le hu hv

/-- The rate does not fall as the utilization rises. -/
theorem rateAt_mono {curve : RateCurve} (sorted : curve.Sorted) (exact : ∀ p ∈ curve, p.Exact)
    (le : u.toRat ≤ v.toRat) (hu : curve.rateAt u = .ok x) (hv : curve.rateAt v = .ok y) :
    x.toRat ≤ y.toRat := by
  match curve with
  | [] => cases hu
  | first :: rest =>
    have last : ∀ q ∈ first :: rest,
        q.rate.toRat ≤ ((first :: rest).getLast (List.cons_ne_nil first rest)).rate.toRat :=
      fun q listed => (List.Pairwise.rel_getLast sorted listed).2
    have first_le := last first List.mem_cons_self
    unfold rateAt at hu hv
    simp only [Decimal.le_iff] at hu hv
    split at hv
    · rename_i v_low
      rw [if_pos (le.trans v_low)] at hu
      cases hu
      cases hv
      exact le_rfl
    rename_i v_inside
    have v_reached := (not_le.mp v_inside).le
    split at hv
    · rename_i v_high
      cases hv
      split at hu
      · cases hu
        exact first_le
      rename_i u_inside
      split at hu
      · cases hu
        exact le_rfl
      · exact (segmentRate_bounds sorted exact last (not_le.mp u_inside).le hu).2
    · rename_i v_between
      split at hu
      · cases hu
        exact (segmentRate_bounds sorted exact last v_reached hv).1
      rename_i u_inside
      rw [if_neg fun u_high => v_between (u_high.trans le)] at hu
      exact segmentRate_mono sorted exact last (not_le.mp u_inside).le le hu hv

end

/-! ## Curves in any order -/

/-- A segment that falls is one that rises with every rate negated. -/
theorem lineAt_flip (p q : RatePoint) (u : ℚ) :
    lineAt ⟨p.utilization, p.rate.flip⟩ ⟨q.utilization, q.rate.flip⟩ u = -lineAt p q u := by
  have rise : -q.rate.toRat - -p.rate.toRat = -(q.rate.toRat - p.rate.toRat) := by ring
  simp only [lineAt, Decimal.toRat_flip, rise, truncate_neg, neg_mul, neg_div, ← neg_add]

/-- On a segment the rate stays between the rates of its ends. -/
theorem lineAt_mem_uIcc {p q : RatePoint} (hp : p.Exact) (hq : q.Exact) {u : ℚ}
    (from_p : p.utilization.toRat ≤ u) (to_q : u ≤ q.utilization.toRat) :
    lineAt p q u ∈ Set.uIcc p.rate.toRat q.rate.toRat := by
  rcases le_total p.rate.toRat q.rate.toRat with rises | falls
  · have below : p.Below q := ⟨from_p.trans to_q, rises⟩
    rw [Set.uIcc_of_le rises]
    exact ⟨le_lineAt below hp from_p, lineAt_le below hq from_p to_q⟩
  · have flipped {c : RatePoint} (hc : c.Exact) : RatePoint.Exact ⟨c.utilization, c.rate.flip⟩ :=
      ⟨hc.utilization, by rw [Decimal.toRat_flip]; exact hc.rate.neg⟩
    have below : RatePoint.Below ⟨p.utilization, p.rate.flip⟩ ⟨q.utilization, q.rate.flip⟩ := by
      refine ⟨from_p.trans to_q, ?_⟩
      rw [Decimal.toRat_flip, Decimal.toRat_flip]
      exact neg_le_neg falls
    have high := le_lineAt below (flipped hp) from_p
    have low := lineAt_le below (flipped hq) from_p to_q
    rw [lineAt_flip, Decimal.toRat_flip, neg_le_neg_iff] at high low
    rw [Set.uIcc_of_ge falls]
    exact ⟨low, high⟩

/-- Where a scan along the segments can end. -/
theorem segmentRate_cases (u beyond : Decimal) (p : RatePoint) (rest : List RatePoint) :
    segmentRate u beyond p rest = .ok beyond ∨
      (∃ q ∈ p :: rest, segmentRate u beyond p rest = .ok q.rate) ∨
      ∃ q ∈ p :: rest, ∃ r ∈ p :: rest, q.utilization.toRat ≤ u.toRat ∧
        u.toRat ≤ r.utilization.toRat ∧ q.utilization.toRat < r.utilization.toRat ∧
        segmentRate u beyond p rest = interpolate q r u := by
  induction rest generalizing p with
  | nil => exact .inl rfl
  | cons q rest ih =>
    have second : q ∈ p :: q :: rest := List.mem_cons_of_mem _ List.mem_cons_self
    unfold segmentRate
    simp only [Decimal.le_iff, Decimal.sameValue_iff]
    split
    · rename_i here
      split
      · exact .inr (.inl ⟨p, List.mem_cons_self, rfl⟩)
      · rename_i sloped
        exact .inr (.inr ⟨p, List.mem_cons_self, q, second, here.1, here.2,
          lt_of_le_of_ne (here.1.trans here.2) (Ne.symm sloped), rfl⟩)
    · rcases ih q with past | ⟨a, ha, vertical⟩ | ⟨a, ha, b, hb, sloped⟩
      · exact .inl past
      · exact .inr (.inl ⟨a, List.mem_cons_of_mem _ ha, vertical⟩)
      · exact .inr (.inr ⟨a, List.mem_cons_of_mem _ ha, b, List.mem_cons_of_mem _ hb, sloped⟩)

/-- A rate is that of a point, or is worked out on a segment that is not vertical. -/
theorem rateAt_cases {curve : RateCurve} (nonempty : curve ≠ []) (u : Decimal) :
    (∃ p ∈ curve, curve.rateAt u = .ok p.rate) ∨
      ∃ p ∈ curve, ∃ q ∈ curve, p.utilization.toRat ≤ u.toRat ∧
        u.toRat ≤ q.utilization.toRat ∧ p.utilization.toRat < q.utilization.toRat ∧
        curve.rateAt u = interpolate p q u := by
  match curve with
  | [] => exact absurd rfl nonempty
  | first :: rest =>
    have last := List.getLast_mem (List.cons_ne_nil first rest)
    unfold rateAt
    dsimp only
    split
    · exact .inl ⟨first, List.mem_cons_self, rfl⟩
    split
    · exact .inl ⟨_, last, rfl⟩
    · rcases segmentRate_cases u _ first rest with past | onSegment
      · exact .inl ⟨_, last, past⟩
      · exact onSegment

/-- Rates are in every interval that the rates of the points are in. -/
theorem rateAt_mem {rates : Set ℚ} (whole : rates.OrdConnected) {curve : RateCurve}
    (exact : ∀ p ∈ curve, p.Exact) (within : ∀ p ∈ curve, p.rate.toRat ∈ rates) {u x : Decimal}
    (h : curve.rateAt u = .ok x) : x.toRat ∈ rates := by
  have nonempty : curve ≠ [] := by
    rintro rfl
    cases h
  rcases rateAt_cases nonempty u with ⟨p, hp, own⟩ | ⟨p, hp, q, hq, from_p, to_q, -, sloped⟩
  · cases h.symm.trans own
    exact within p hp
  · rw [interpolate_value (sloped.symm.trans h)]
    exact whole.uIcc_subset (within p hp) (within q hq)
      (lineAt_mem_uIcc (exact p hp) (exact q hq) from_p to_q)

/-- From stored rates that are not negative a curve gives none that is. -/
theorem rateAt_nonneg {points : List ControlPoint} {curve : RateCurve} {u x : Decimal}
    (unsigned : ∀ c ∈ points, 0 ≤ c.borrowRateBps) (h : ofControlPoints points = .ok curve)
    (given : curve.rateAt u = .ok x) : 0 ≤ x.toRat := by
  refine rateAt_mem Set.ordConnected_Ici (exact_ofControlPoints h) ?_ given
  refine forall_ofControlPoints (fun c listed p hp => ?_) h
  show 0 ≤ p.rate.toRat
  rw [(c.toRatePoint_value hp).2]
  exact truncate_nonneg (div_nonneg (by exact_mod_cast unsigned c listed) (by norm_num))

end RateCurve

structure RatePoint.Unsigned (p : RatePoint) : Prop extends p.Exact where
  utilization_nonneg : 0 ≤ p.utilization.toRat
  utilization_lt : p.utilization.toRat < Decimal.limit
  rate_nonneg : 0 ≤ p.rate.toRat
  rate_lt : p.rate.toRat < Decimal.limit

structure RatePoint.Moderate (p : RatePoint) (high : ℚ) : Prop extends p.Exact where
  utilization_nonneg : 0 ≤ p.utilization.toRat
  utilization_lt : p.utilization.toRat < Decimal.limit / 2
  rate_nonneg : 0 ≤ p.rate.toRat
  rate_le : p.rate.toRat ≤ high

theorem RatePoint.Moderate.unsigned {p : RatePoint} {high : ℚ} (h : p.Moderate high)
    (small : high < Decimal.limit / 2) : p.Unsigned where
  toExact := h.toExact
  utilization_nonneg := h.utilization_nonneg
  utilization_lt := h.utilization_lt.trans (half_lt_self Decimal.limit_pos)
  rate_nonneg := h.rate_nonneg
  rate_lt := (h.rate_le.trans_lt small).trans (half_lt_self Decimal.limit_pos)

namespace RateCurve

section
variable {u : Decimal}

/-- The one product that is worked out for a rate at `u` is no overflow, whatever the segment. -/
def GainsInRange (curve : RateCurve) (u : Decimal) : Prop :=
  ∀ p ∈ curve, ∀ q ∈ curve, p.utilization.toRat ≤ u.toRat → u.toRat ≤ q.utilization.toRat →
    |q.rate.toRat - p.rate.toRat| * (u.toRat - p.utilization.toRat) < Decimal.limit

theorem exists_interpolate {p q : RatePoint} (hp : p.Unsigned) (hq : q.Unsigned)
    (from_p : p.utilization.toRat ≤ u.toRat) (to_q : u.toRat ≤ q.utilization.toRat)
    (apart : p.utilization.toRat < q.utilization.toRat)
    (gain : |q.rate.toRat - p.rate.toRat| * (u.toRat - p.utilization.toRat) < Decimal.limit) :
    ∃ x, interpolate p q u = .ok x := by
  obtain ⟨rise, hrise⟩ := exists_sub_of_nonneg hq.rate_nonneg hp.rate_nonneg hq.rate_lt hp.rate_lt
  obtain ⟨part, hpart⟩ := exists_sub_of_nonneg (hp.utilization_nonneg.trans from_p)
    hp.utilization_nonneg (to_q.trans_lt hq.utilization_lt) hp.utilization_lt
  obtain ⟨run, hrun⟩ := exists_sub_of_nonneg hq.utilization_nonneg hp.utilization_nonneg
    hq.utilization_lt hp.utilization_lt
  have part_nonneg : 0 ≤ part.toRat := by
    rw [sub_value hpart]
    exact truncate_nonneg (sub_nonneg.mpr from_p)
  have run_pos : 0 < run.toRat := by
    rw [sub_value hrun]
    exact (hq.utilization.onGrid.sub hp.utilization.onGrid).truncate_pos (sub_pos.mpr apart)
  have within_run : part.toRat ≤ run.toRat := by
    rw [sub_value hpart, sub_value hrun]
    exact truncate_mono (sub_le_sub_right to_q _)
  obtain ⟨product, hproduct⟩ : ∃ z, (rise * part : Outcome Decimal) = .ok z := by
    refine exists_mul (lt_of_le_of_lt ?_ gain)
    rw [abs_mul, abs_of_nonneg part_nonneg]
    refine mul_le_mul ?_ ?_ part_nonneg (abs_nonneg _)
    · rw [sub_value hrise]
      exact abs_truncate_le _
    · rw [sub_value hpart]
      exact truncate_le (sub_nonneg.mpr from_p)
  -- a part of the rise is no larger than the rise
  obtain ⟨share, hshare⟩ : ∃ z, (product / run : Outcome Decimal) = .ok z := by
    refine exists_div run_pos.ne' (lt_of_le_of_lt ?_ (sub_result hrise).size)
    rw [mul_value hproduct, abs_div, abs_of_pos run_pos, div_le_iff₀ run_pos]
    refine (abs_truncate_le _).trans ?_
    rw [abs_mul, abs_of_nonneg part_nonneg]
    exact mul_le_mul_of_nonneg_left within_run (abs_nonneg _)
  obtain ⟨x, hx⟩ : ∃ x, (p.rate + share : Outcome Decimal) = .ok x := by
    refine exists_add_of_sum ?_ (div_result hshare).size (Decimal.abs_lt_limit_of_truncate ?_)
    · rw [abs_of_nonneg hp.rate_nonneg]
      exact hp.rate_lt
    · rw [(div_value hshare).2, mul_value hproduct, sub_value hrise, sub_value hpart,
        sub_value hrun]
      show |lineAt p q u.toRat| < Decimal.limit
      have between := lineAt_mem_uIcc hp.toExact hq.toExact from_p to_q
      have nonneg := (le_min hp.rate_nonneg hq.rate_nonneg).trans between.1
      rw [abs_of_nonneg nonneg]
      exact between.2.trans_lt (max_lt hp.rate_lt hq.rate_lt)
  refine ⟨x, ?_⟩
  unfold interpolate
  simp only [bind_eq_ok_iff]
  exact ⟨rise, hrise, part, hpart, product, hproduct, run, hrun, share, hshare, hx⟩

theorem exists_rateAt_of_gains {curve : RateCurve} (nonempty : curve ≠ [])
    (points : ∀ p ∈ curve, p.Unsigned) (gains : curve.GainsInRange u) :
    ∃ x, curve.rateAt u = .ok x := by
  rcases rateAt_cases nonempty u with ⟨p, -, own⟩ | ⟨p, hp, q, hq, from_p, to_q, apart, sloped⟩
  · exact ⟨_, own⟩
  · rw [sloped]
    exact exists_interpolate (points p hp) (points q hq) from_p to_q apart
      (gains p hp q hq from_p to_q)

/-- Up to full utilization, only a curve without points gives no rate. -/
theorem exists_rateAt {high : ℚ} (small : high < Decimal.limit / 2) (used : u.toRat ≤ 1)
    {curve : RateCurve} (some : curve ≠ []) (moderate : ∀ p ∈ curve, p.Moderate high) :
    ∃ x, curve.rateAt u = .ok x := by
  refine exists_rateAt_of_gains some (fun p listed => (moderate p listed).unsigned small) ?_
  intro p hp q hq from_p to_q
  have hp := moderate p hp
  have hq := moderate q hq
  have rise_le : |q.rate.toRat - p.rate.toRat| ≤ high := by
    refine abs_le.mpr ?_
    constructor <;> linarith [hp.rate_nonneg, hp.rate_le, hq.rate_nonneg, hq.rate_le]
  have part_le : u.toRat - p.utilization.toRat ≤ 1 := by linarith [hp.utilization_nonneg]
  calc |q.rate.toRat - p.rate.toRat| * (u.toRat - p.utilization.toRat)
      ≤ |q.rate.toRat - p.rate.toRat| := mul_le_of_le_one_right (abs_nonneg _) part_le
    _ ≤ high := rise_le
    _ < Decimal.limit := small.trans (half_lt_self Decimal.limit_pos)

end

/-! ## Utilizations of the same value -/

/-- The coordinates of a stored point are what operations gave. -/
theorem results_ofControlPoints {points : List ControlPoint} {curve : RateCurve}
    (h : ofControlPoints points = .ok curve) :
    ∀ p ∈ curve, p.utilization.Result ∧ p.rate.Result := by
  refine forall_ofControlPoints (fun c _ p hp => ?_) h
  unfold ControlPoint.toRatePoint at hp
  simp only [bind_eq_ok_iff] at hp
  obtain ⟨utilization, hutilization, rate, hrate, hp⟩ := hp
  cases hp
  exact ⟨div_result hutilization, div_result hrate⟩

section
variable {u u' : Decimal} (same : u.toRat = u'.toRat) (result : u.Result)
include same result

theorem interpolate_sameValue {p : RatePoint} (point : p.utilization.Result ∧ p.rate.Result)
    (q : RatePoint) : SameValue (interpolate p q u) (interpolate p q u') := by
  unfold interpolate
  refine .bind_same fun rise _ => ?_
  refine .bind (sub_sameValue same rfl result.size point.1.size) fun part part' _ _ same_part => ?_
  refine .bind (mul_sameValue rfl same_part) fun gain gain' _ _ same_gain => .bind_same fun run _ =>
    .bind (div_sameValue same_gain rfl) fun share share' hshare _ same_share => ?_
  exact add_sameValue rfl same_share point.2.size (div_result hshare).size

theorem segmentRate_sameValue {beyond : Decimal} {p : RatePoint} {rest : List RatePoint}
    (points : ∀ q ∈ p :: rest, q.utilization.Result ∧ q.rate.Result) :
    SameValue (segmentRate u beyond p rest) (segmentRate u' beyond p rest) := by
  induction rest generalizing p with
  | nil => exact .refl _
  | cons q rest ih =>
    obtain ⟨hp, points⟩ := List.forall_mem_cons.mp points
    unfold segmentRate
    simp only [Decimal.le_iff, ← same]
    split
    · split
      · exact .refl _
      · exact interpolate_sameValue same result hp q
    · exact ih points

theorem rateAt_sameValue {curve : RateCurve}
    (points : ∀ p ∈ curve, p.utilization.Result ∧ p.rate.Result) :
    SameValue (curve.rateAt u) (curve.rateAt u') := by
  match curve with
  | [] => exact .refl _
  | first :: rest =>
    unfold rateAt
    simp only [Decimal.le_iff, ← same]
    split
    · exact .refl _
    split
    · exact .refl _
    · exact segmentRate_sameValue same result points

end

end RateCurve

end Lending
