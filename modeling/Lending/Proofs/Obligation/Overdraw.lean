/-
  Lending.Proofs.Obligation.Overdraw — taking more out of a position than it is worth.

  A withdrawal or a repayment lowers the position of the token and the total of its side, and
  keeps each from falling below zero by itself. While the position covers what is taken, the
  worth of the other positions stays in the total. Beyond that the position is empty but the
  total goes on falling: what was asked too much comes off the worth of the other positions,
  none of which changed (`overdraw_spends_others`).
-/
import Lending.Proofs.Obligation.Legs

namespace Lending

open Outcome Truncation

/-! ## Requests that take out -/

namespace Side

def takeOut : Side → Action
  | .deposits => .withdraw
  | .borrows => .repay

def takingOut : Side → LegKind
  | .deposits => .withdraw
  | .borrows => .repay

end Side

def Leg.takeOut (side : Side) (x : Decimal) (mint : String) : Leg := ⟨side.takingOut, x, mint⟩

theorem side_takingOut (side : Side) : side.takingOut.side = side := by
  cases side <;> rfl

theorem Leg.signed_takeOut (side : Side) (x : Decimal) (mint : String) :
    (Leg.takeOut side x mint).signed = x.negated := by
  cases side <;> rfl

theorem ObligationRequest.legs_takeOut (q : ObligationRequest) (side : Side) :
    q.legs side.takeOut = .ok [Leg.takeOut side q.amount q.mint] := by
  cases side <;> rfl

theorem Scenario.total_of_refresh {s : Scenario} {stats : ObligationStats}
    (h : s.stats.refresh = .ok stats) (side : Side) :
    ({ s with stats } : Scenario).total side = s.total side := by
  obtain ⟨deposit, borrow, -, -⟩ := Obligation.refresh_totals h
  cases side with
  | deposits => exact deposit
  | borrows => exact borrow

/-- Taking out is one leg, for which the ratios are worked out anew. -/
theorem Obligation.simulate_takeOut {o : Obligation} {m : Market} {q : ObligationRequest}
    {side : Side} {x : Decimal} {mint : String} {s : Scenario}
    (asks : q.Asks side.takeOut x mint) (h : o.simulate m q = .ok s) :
    ∃ once, o.addLeg m o.scenario (Leg.takeOut side x mint) = .ok once ∧
      s.total side = once.total side ∧ s.positions side = once.positions side := by
  obtain ⟨once, stats, step, refreshed, rfl⟩ :=
    simulate_one asks.action_eq (q.legs_takeOut side) h
  rw [asks.amount_eq, asks.mint_eq] at step
  refine ⟨once, step, Scenario.total_of_refresh refreshed side, ?_⟩
  cases side <;> rfl

/-! ## The positions beside one -/

def Position.last? (positions : AddressMap Position) (mint : String) : Option Position :=
  positions.values.reverse.find? (·.mint == mint)

theorem Position.ofMint_of_last {positions : AddressMap Position} {mint : String} {p : Position}
    (last : Position.last? positions mint = some p) (r : Reserve) :
    Position.ofMint positions r mint = p := by
  unfold Position.ofMint
  rw [show positions.values.reverse.find? (·.mint == mint) = some p from last]
  rfl

theorem Position.mem_of_last {positions : AddressMap Position} {mint : String} {p : Position}
    (last : Position.last? positions mint = some p) : p ∈ positions.values :=
  List.mem_reverse.mp (List.mem_of_find?_eq_some last)

def worthBeside (positions : AddressMap Position) (address : String) : ℚ :=
  ((positions.entries.filter (·.1 ≠ address)).map (·.2.value.toRat)).sum

theorem worthBeside_insert (positions : AddressMap Position) (address : String) (p : Position) :
    worthBeside (positions.insert address p) address = worthBeside positions address := by
  unfold worthBeside AddressMap.insert
  rw [AddressMap.filter_insertEntry]

/-- All positions are worth one of them and the others. -/
theorem Holdings.worth_eq {m : Market} {positions : AddressMap Position}
    (held : Holdings m positions) {p : Position} (listed : p ∈ positions.values) :
    worth positions = p.value.toRat + worthBeside positions p.reserve := by
  obtain ⟨⟨address, own⟩, entered, same⟩ := List.mem_map.mp listed
  obtain rfl : own = p := same
  obtain rfl : own.reserve = address := held.keyed _ entered
  obtain ⟨before, after, split⟩ := List.append_of_mem entered
  have shuffled : positions.entries.Perm ((own.reserve, own) :: (before ++ after)) := by
    rw [split]
    exact List.perm_middle
  -- no other entry is under the same reserve
  have distinct := (shuffled.map Prod.fst).nodup_iff.mp held.distinct
  rw [List.map_cons, List.nodup_cons] at distinct
  have kept : (before ++ after).filter (·.1 ≠ own.reserve) = before ++ after := by
    refine List.filter_eq_self.mpr fun entry listed => decide_eq_true fun same => ?_
    exact distinct.1 (List.mem_map.mpr ⟨entry, listed, same⟩)
  have all := (shuffled.map (·.2.value.toRat)).sum_eq
  have others := ((shuffled.filter (·.1 ≠ own.reserve)).map (·.2.value.toRat)).sum_eq
  rw [List.filter_cons_of_neg (by simp), kept] at others
  unfold worth worthBeside AddressMap.values
  rw [List.map_map, others]
  exact all

/-! ## What is taken out -/

/-- What a total is left with after a value was taken out of one of its positions: the worth of
    the others while the position covers it, and less than that by what it does not cover. -/
structure TakenOut (others position out left slack : ℚ) : Prop where
  near : |left - max (others - (out - position)) 0| ≤ slack
  spared : out ≤ position → others - slack ≤ left
  spent : ∀ loss, position + loss + slack < out → loss + slack < others → left < others - loss

theorem TakenOut.of_near {others position out left slack : ℚ}
    (near : |left - max (others - (out - position)) 0| ≤ slack) :
    TakenOut others position out left slack := by
  obtain ⟨low, high⟩ := abs_le.mp near
  refine ⟨near, fun covered => ?_, fun loss beyond more => ?_⟩
  · have := le_max_left (others - (out - position)) 0
    linarith
  · have below : max (others - (out - position)) 0 < others - loss - slack :=
      max_lt (by linarith) (by linarith)
    linarith

/-- A total that is a sum of figures, after a value was taken out of it. -/
theorem moved_neg_near {total out : ℚ} (nonneg : 0 ≤ total) (takes : 0 ≤ out)
    (grid : OnGrid (total - out)) : |moved total (-out) - max (total - out) 0| ≤ ulp * total := by
  unfold moved
  rw [← sub_eq_add_neg]
  rcases le_total 0 (total - out) with covered | short
  · rw [max_eq_left (truncate_nonneg covered), max_eq_left covered]
    refine grid.abs_truncate_sub_le ?_
    rw [abs_of_nonneg covered]
    linarith
  · rw [max_eq_right (le_truncate_of_nonpos short).2, max_eq_right short, sub_self, abs_zero]
    exact mul_nonneg ulp_pos.le nonneg

/-- The total was below the worth of its positions by the digits lost on the way, and is so by
    one more cut now. -/
theorem Summed.takenOut {total out position others : ℚ} {positions : AddressMap Position}
    {count : ℕ} (summed : Summed total positions count) (nonneg : 0 ≤ total) (takes : 0 ≤ out)
    (exact : OnGrid out) (sum : worth positions = position + others) :
    TakenOut others position out (moved total (-out)) ((2 * count + 1) * ulp * total) := by
  have near := moved_neg_near nonneg takes (summed.representable.onGrid.sub exact)
  have below := summed.total_le_worth
  have lost := summed.worth_le
  rw [sum] at below lost
  have floored := abs_max_sub_max_le_abs (total - out) (others - (out - position)) 0
  have apart : |(total - out) - (others - (out - position))| ≤ 2 * count * ulp * total := by
    rw [abs_le]
    constructor <;> linarith
  refine .of_near ((abs_sub_le _ (max (total - out) 0) _).trans ?_)
  linarith

theorem Scenario.Unsigned.total_nonneg {s : Scenario} (unsigned : s.Unsigned) (side : Side) :
    0 ≤ (s.total side).toRat := by
  cases side with
  | deposits => exact unsigned.stats.totalDeposit
  | borrows => exact unsigned.stats.totalBorrow

theorem Pool.neg_valueOf_nonneg {p : Pool} {x amount value : Decimal}
    (price : 0 ≤ p.oraclePrice.toRat) (nonneg : 0 ≤ x.toRat) (negated : x.negated = .ok amount)
    (h : p.valueOf amount = .ok value) : 0 ≤ -value.toRat := by
  obtain ⟨factor, factor_eq, -, dollars⟩ := valueOf_steps h
  rw [dollars, negated_value negated, scaleBy_neg, neg_neg]
  exact scaleBy_nonneg (dollarSteps_nonneg price factor_eq) (truncate_nonneg nonneg)

section
variable {m m' : Market} {cr br : Option RateMap} {o : Obligation} {q : ObligationRequest}
  {side : Side} {x : Decimal} {mint : String} {p : Position} {s : Scenario}

/-- What a simulated withdrawal or repayment takes out, however much it is, is taken out of the
    total. The other positions are untouched, yet the total keeps their worth only if the
    position of the token covers what is taken. -/
theorem overdraw_spends_others (keyed : m.Keyed)
    (valued : Obligation.value m o.address o.account cr br = .ok o)
    (deposits : (o.account.usedDeposits.map (·.reserve)).Nodup)
    (borrows : (o.account.usedBorrows.map (·.reserve)).Nodup) (unsigned : o.scenario.Unsigned)
    (prices : ∀ r ∈ m'.reserves.values, 0 ≤ r.oraclePrice.toRat)
    (asks : q.Asks side.takeOut x mint) (nonneg : 0 ≤ x.toRat)
    (last : Position.last? (o.scenario.positions side) mint = some p)
    (h : o.simulate m' q = .ok s) :
    ∃ value, (Leg.takeOut side x mint).value m' = .ok value ∧
      worthBeside (s.positions side) p.reserve =
        worthBeside (o.scenario.positions side) p.reserve ∧
      TakenOut (worthBeside (o.scenario.positions side) p.reserve) p.value.toRat (-value.toRat)
        (s.total side).toRat
        ((2 * o.account.slotCount side + 1) / 10 ^ 39 * (o.scenario.total side).toRat) := by
  obtain ⟨held, summed⟩ := summed_of_value keyed valued deposits borrows unsigned side
  obtain ⟨once, run, total, positions⟩ := Obligation.simulate_takeOut asks h
  obtain ⟨r, amount, value, changed, step⟩ := Obligation.addLeg_step run
  have same : (Leg.takeOut side x mint).kind.side = side := side_takingOut side
  obtain ⟨listed, -⟩ := Market.mint_of_reserveOfMint step.reserve_eq
  have position := step.position
  have left := step.total
  have signed := step.signed_eq
  rw [same] at position left
  rw [Leg.signed_takeOut] at signed
  refine ⟨value, Leg.value_of_step step, ?_, ?_⟩
  · have own : Position.ofMint (o.scenario.positions side) r (Leg.takeOut side x mint).mint = p :=
      Position.ofMint_of_last last r
    rw [positions, position.entered, own, worthBeside_insert]
  · have takes : 0 ≤ -value.toRat := Pool.neg_valueOf_nonneg (prices r listed) nonneg signed
      step.value_eq
    have exact_out := (Pool.representable_valueOf step.value_eq).onGrid.neg
    have settled := summed.takenOut (unsigned.total_nonneg side) takes exact_out
      (held.worth_eq (Position.mem_of_last last))
    rw [neg_neg] at settled
    rwa [ulp_eq, mul_one_div, ← left, ← total] at settled

end

/-! ## Samples -/

namespace Sample

def pair : Market where
  address := "market"
  account := {}
  reserves := ⟨[("reserve", idle "reserve" "token" 6 1), ("vault", idle "vault" "coin" 6 1)]⟩

def holder : ObligationAccount where
  market := "market"
  owner := "owner"
  deposits := [
    { reserve := "reserve", depositedAmount := 4000000 },
    { reserve := "vault", depositedAmount := 2000000 }]
  borrows := [
    { reserve := "reserve", cumulativeBorrowRateLimbs := [scale, 0, 0, 0],
      rawBorrowed := 1000000 * scale },
    { reserve := "vault", cumulativeBorrowRateLimbs := [scale, 0, 0, 0],
      rawBorrowed := 500000 * scale }]

def pairIndex : RateMap := ⟨[("reserve", 1), ("vault", 1)]⟩

def pairObligation : Obligation where
  address := "obligation"
  account := holder
  deposits := ⟨[
    ("reserve", ⟨"reserve", "token", ⟨false, 4, 6⟩, 4⟩),
    ("vault", ⟨"vault", "coin", ⟨false, 2, 6⟩, 2⟩)]⟩
  borrows := ⟨[
    ("reserve", ⟨"reserve", "token", ⟨false, 1, 6⟩, 1⟩),
    ("vault", ⟨"vault", "coin", ⟨false, 5, 5⟩, ⟨false, 5, -1⟩⟩)]⟩
  stats := {
    totalDeposit := 6
    totalBorrow := ⟨false, 15, -1⟩
    weightedBorrow := ⟨false, 15, -1⟩
    borrowLimit := ⟨false, 48, -1⟩
    liquidationLimit := ⟨false, 51, -1⟩
    borrowUtilization := ⟨false, 3125, -4⟩
    netValue := ⟨false, 45, -1⟩
    loanToValue := ⟨false, 25, -2⟩
    liquidationLtv := ⟨false, 85, -2⟩
    leverage := ⟨false, 1333333333333333333333333333333333333333, -39⟩ }

end Sample

/-- A debt of 1 is paid back with 1.2. Of the other debt, still 0.5, less than 0.4 is left in
    the total. -/
theorem overdraw_spends_others_sample :
    ∃ s, Sample.pairObligation.simulate Sample.pair (Sample.request "repay" 1200000 "token") =
        .ok s ∧
      worthBeside (s.positions .borrows) "reserve" = 1 / 2 ∧
      (s.total .borrows).toRat < 1 / 2 - 1 / 10 := by
  obtain ⟨s, simulated⟩ := exists_of_isOk (show (Sample.pairObligation.simulate Sample.pair
    (Sample.request "repay" 1200000 "token")).isOk by decide +kernel)
  have unsigned : Sample.pairObligation.scenario.Unsigned := by
    refine ⟨⟨by decide +kernel, by decide +kernel, by decide +kernel, by decide +kernel,
      by decide +kernel, by decide +kernel⟩, ?_⟩
    rintro (_ | _) <;> decide +kernel
  have asks : (Sample.request "repay" 1200000 "token").Asks (Side.takeOut .borrows) 1200000
      "token" := ⟨by decide +kernel, rfl, rfl⟩
  have valued : Obligation.value Sample.pair "obligation" Sample.holder none
      (some Sample.pairIndex) = .ok Sample.pairObligation := by decide +kernel
  have last : Position.last? (Sample.pairObligation.scenario.positions .borrows) "token" =
      some ⟨"reserve", "token", ⟨false, 1, 6⟩, 1⟩ := by decide
  obtain ⟨value, value_eq, beside, taken⟩ := overdraw_spends_others (by decide) valued
    (by decide) (by decide) unsigned (by decide +kernel) asks (by decide +kernel) last simulated
  cases (show (Leg.takeOut .borrows 1200000 "token").value Sample.pair =
    .ok ⟨true, 12, -1⟩ by decide +kernel).symm.trans value_eq
  have others : worthBeside (Sample.pairObligation.scenario.positions .borrows) "reserve" =
      1 / 2 := by decide +kernel
  rw [others] at beside taken
  exact ⟨s, simulated, beside, taken.spent (1 / 10) (by decide +kernel) (by decide +kernel)⟩

end Lending
