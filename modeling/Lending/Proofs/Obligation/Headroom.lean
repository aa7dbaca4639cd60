/-
  Lending.Proofs.Obligation.Headroom — what a borrow limit leaves.

  The limit and the weighted debt of an obligation are sums that were cut, so they are figures
  themselves, and a sum that is cut does not cross them. What is spare is their difference, cut:
  never more than there is, and short of it by a unit at most.
-/
import Lending.Obligation.Sample
import Lending.Proofs.Obligation.Totals

namespace Lending.Obligation

open Truncation

def Valued (o : Obligation) : Prop :=
  ∃ m cr br, value m o.address o.account cr br = .ok o

theorem Valued.representable_borrowLimit {o : Obligation} (valued : o.Valued) :
    Representable o.stats.borrowLimit.toRat := by
  obtain ⟨m, cr, br, valued⟩ := valued
  obtain ⟨-, ds, bs, -, -, sums⟩ := value_sums valued
  rw [sums.borrowLimit]
  exact representable_runningSum _

theorem Valued.representable_weightedBorrow {o : Obligation} (valued : o.Valued) :
    Representable o.stats.weightedBorrow.toRat := by
  obtain ⟨m, cr, br, valued⟩ := valued
  obtain ⟨-, ds, bs, -, -, sums⟩ := value_sums valued
  rw [sums.weightedBorrow]
  exact representable_runningSum _

theorem valued_sample : Sample.obligation.Valued :=
  ⟨Sample.market, none, none, by decide +kernel⟩

def WithinLimit (s : ObligationStats) : Prop := s.weightedBorrow.toRat ≤ s.borrowLimit.toRat

def spareLimit (o : Obligation) : ℚ :=
  truncate (o.stats.borrowLimit.toRat - o.stats.weightedBorrow.toRat)

theorem spareLimit_mem {o : Obligation} (within : WithinLimit o.stats) :
    0 ≤ o.spareLimit ∧ o.spareLimit ≤ o.stats.borrowLimit.toRat - o.stats.weightedBorrow.toRat :=
  ⟨truncate_nonneg (sub_nonneg.mpr within), truncate_le (sub_nonneg.mpr within)⟩

theorem Valued.sub_spareLimit_le {o : Obligation} (valued : o.Valued)
    (within : WithinLimit o.stats) :
    (o.stats.borrowLimit.toRat - o.stats.weightedBorrow.toRat) - o.spareLimit ≤
      ulp * (o.stats.borrowLimit.toRat - o.stats.weightedBorrow.toRat) :=
  sub_truncate_le (sub_nonneg.mpr within) (valued.representable_borrowLimit.onGrid.sub
    valued.representable_weightedBorrow.onGrid).not_underflows

end Lending.Obligation
