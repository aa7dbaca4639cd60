/-
  Lending.Proofs.Obligation.Totals — the totals of an account as sums over its slots.

  Every total is a running sum of one figure of each valued slot (`valueDeposits_sums`,
  `valueBorrows_sums`), and the positions are those of the slots. In a market with one reserve
  for each token the position of a token is the one in its reserve (`ofMint_eq`). An account
  whose slots can be valued is an obligation, up to an overflow (`value_overflowOnly`).
-/
import Lending.Obligation.Scenario
import Lending.Proofs.AddressMap
import Lending.Proofs.Market.Keyed
import Lending.Proofs.Obligation.Slots

namespace Lending

open Outcome Truncation

/-! ## Positions -/

def positionMap (positions : List Position) : AddressMap Position :=
  .ofList (positions.map fun p => (p.reserve, p))

theorem positionMap_append_singleton (positions : List Position) (p : Position) :
    positionMap (positions ++ [p]) = (positionMap positions).insert p.reserve p := by
  unfold positionMap
  rw [List.map_append]
  exact AddressMap.ofList_append_singleton _ _

theorem mem_positionMap {positions : List Position} {entry : String × Position}
    (h : entry ∈ (positionMap positions).entries) :
    entry.2.reserve = entry.1 ∧ entry.2 ∈ positions := by
  obtain ⟨p, listed, rfl⟩ := List.mem_map.mp (AddressMap.mem_ofList h)
  exact ⟨rfl, listed⟩

theorem mem_of_mem_positionMap {positions : List Position} {p : Position}
    (h : p ∈ (positionMap positions).values) : p ∈ positions := by
  obtain ⟨entry, entered, rfl⟩ := List.mem_map.mp h
  exact (mem_positionMap entered).2

section
variable {positions : List Position} (distinct : (positions.map (·.reserve)).Nodup)
include distinct

theorem entries_positionMap :
    (positionMap positions).entries = positions.map fun p => (p.reserve, p) := by
  refine AddressMap.entries_ofList ?_
  rwa [List.map_map]

theorem values_positionMap : (positionMap positions).values = positions := by
  unfold AddressMap.values
  rw [entries_positionMap distinct, List.map_map]
  exact List.map_id _

theorem find?_positionMap {p : Position} (h : p ∈ positions) :
    (positionMap positions).find? p.reserve = some p := by
  refine AddressMap.find?_of_mem ?_ ?_
  · unfold AddressMap.addresses
    rwa [entries_positionMap distinct, List.map_map]
  · rw [entries_positionMap distinct]
    exact List.mem_map.mpr ⟨p, h, rfl⟩

theorem find?_positionMap_of_fresh {address : String}
    (fresh : ∀ p ∈ positions, p.reserve ≠ address) :
    (positionMap positions).find? address = none := by
  cases found : (positionMap positions).find? address with
  | none => rfl
  | some p =>
    have listed := AddressMap.mem_of_find? found
    rw [entries_positionMap distinct] at listed
    obtain ⟨other, held, same⟩ := List.mem_map.mp listed
    cases same
    exact absurd rfl (fresh p held)

end

def Market.OnePerMint (m : Market) : Prop := (m.reserves.values.map (·.mint)).Nodup

instance (m : Market) : Decidable m.OnePerMint :=
  inferInstanceAs (Decidable (m.reserves.values.map (·.mint)).Nodup)

theorem Market.OnePerMint.reserve_eq {m : Market} (one : m.OnePerMint) {r r' : Reserve}
    (hr : r ∈ m.reserves.values) (hr' : r' ∈ m.reserves.values) (same : r.mint = r'.mint) :
    r = r' :=
  List.inj_on_of_nodup_map one hr hr' same

theorem Market.OnePerMint.reserveOfMint {m : Market} (one : m.OnePerMint) {address : String}
    {r r' : Reserve} (onMarket : m.reserveAt? address = some r)
    (found : m.reserveOfMint r.mint = .ok r') : r' = r := by
  have found := ofOption_eq_ok_iff.mp found
  refine one.reserve_eq (List.mem_of_find?_eq_some found)
    (AddressMap.mem_values_of_find? onMarket) ?_
  simpa using List.find?_some found

def positionIn (positions : AddressMap Position) (r : Reserve) : Position :=
  (positions.find? r.address).getD ⟨r.address, r.mint, 0, 0⟩

theorem positionIn_reserve {positions : List Position}
    (distinct : (positions.map (·.reserve)).Nodup) (r : Reserve) :
    (positionIn (positionMap positions) r).reserve = r.address := by
  unfold positionIn
  cases found : (positionMap positions).find? r.address with
  | none => rfl
  | some p =>
    have listed := AddressMap.mem_of_find? found
    rw [entries_positionMap distinct] at listed
    obtain ⟨other, -, same⟩ := List.mem_map.mp listed
    obtain ⟨address, rfl⟩ := Prod.mk.inj same
    exact address

/-- The position of a token is the one in its reserve. -/
theorem ofMint_eq {m : Market} (keyed : m.Keyed) (one : m.OnePerMint) {positions : List Position}
    (distinct : (positions.map (·.reserve)).Nodup)
    (placed : ∀ p ∈ positions, ∃ r, m.reserveAt? p.reserve = some r ∧ p.mint = r.mint) {r : Reserve}
    (onMarket : m.reserveAt? r.address = some r) :
    Position.ofMint (positionMap positions) r r.mint = positionIn (positionMap positions) r := by
  have same_reserve {p : Position} (h : p ∈ positions) (mint : p.mint = r.mint) :
      p.reserve = r.address := by
    obtain ⟨own, found, token⟩ := placed p h
    have same : own = r := one.reserve_eq (AddressMap.mem_values_of_find? found)
      (AddressMap.mem_values_of_find? onMarket) (token.symm.trans mint)
    rw [← keyed.address_eq found, same]
  unfold Position.ofMint positionIn
  congr 1
  rw [values_positionMap distinct]
  by_cases held : ∃ p ∈ positions, p.reserve = r.address
  · obtain ⟨p, listed, address⟩ := held
    rw [← address, find?_positionMap distinct listed]
    obtain ⟨own, found, token⟩ := placed p listed
    have mint : p.mint = r.mint := by
      rw [address, onMarket] at found
      cases found
      exact token
    cases search : positions.reverse.find? (·.mint == r.mint) with
    | none =>
      have := List.find?_eq_none.mp search p (List.mem_reverse.mpr listed)
      simp [mint] at this
    | some p' =>
      have listed' : p' ∈ positions := List.mem_reverse.mp (List.mem_of_find?_eq_some search)
      have mint' : p'.mint = r.mint := by simpa using List.find?_some search
      rw [List.inj_on_of_nodup_map distinct listed' listed
        ((same_reserve listed' mint').trans address.symm)]
  · have fresh : ∀ p ∈ positions, p.reserve ≠ r.address := fun p listed address =>
      held ⟨p, listed, address⟩
    rw [find?_positionMap_of_fresh distinct fresh, List.find?_eq_none]
    intro p listed mint
    have listed := List.mem_reverse.mp listed
    exact fresh p listed (same_reserve listed (by simpa using mint))

/-! ## Totals -/

/-- One computation after the other, whether or not the deposit counts as collateral. -/
theorem DepositTotals.addValue_eq (t : DepositTotals) (terms : CollateralTerms) (p : Position) :
    t.addValue terms p = (t.total + p.value >>= fun total =>
      (if terms.loanToValue.isZero then pure t.collateral else t.collateral + p.value)
        >>= fun collateral =>
      p.value * terms.loanToValue >>= fun lent => t.borrowLimit + lent >>= fun borrowLimit =>
      p.value * terms.liquidationThreshold >>= fun backed =>
      t.liquidationLimit + backed >>= fun liquidationLimit =>
      pure ⟨t.positions.insert p.reserve p, total, collateral, borrowLimit, liquidationLimit⟩) := by
  unfold DepositTotals.addValue
  refine bind_congr fun total _ => ?_
  split <;> rfl

theorem DepositTotals.addValue_overflowOnly (t : DepositTotals) (terms : CollateralTerms)
    (p : Position) : (t.addValue terms p).OverflowOnly := by
  rw [addValue_eq]
  refine (add_overflowOnly _ _).bind fun _ _ => .bind ?_ fun _ _ => ?_
  · split
    · exact .pure _
    · exact add_overflowOnly _ _
  refine (mul_overflowOnly _ _).bind fun _ _ => (add_overflowOnly _ _).bind fun _ _ => ?_
  exact (mul_overflowOnly _ _).bind fun _ _ => (add_overflowOnly _ _).bind fun _ _ => .pure _

structure DepositTotals.SumOf (t : DepositTotals) (vs : List (CollateralTerms × Position)) :
    Prop where
  positions : t.positions = positionMap (vs.map (·.2))
  total : t.total.toRat = runningSum (vs.map fun v => v.2.value.toRat)
  borrowLimit : t.borrowLimit.toRat =
    runningSum (vs.map fun v => truncate (v.2.value.toRat * v.1.loanToValue.toRat))
  liquidationLimit : t.liquidationLimit.toRat =
    runningSum (vs.map fun v => truncate (v.2.value.toRat * v.1.liquidationThreshold.toRat))

theorem DepositTotals.SumOf.addValue {done : List (CollateralTerms × Position)}
    {t next : DepositTotals} (v : CollateralTerms × Position) (h : t.SumOf done)
    (added : t.addValue v.1 v.2 = .ok next) : next.SumOf (done ++ [v]) := by
  rw [addValue_eq] at added
  simp only [bind_eq_ok_iff] at added
  obtain ⟨total, htotal, collateral, -, lent, hlent, borrowLimit, hborrow, backed, hbacked,
    liquidationLimit, hliquidation, added⟩ := added
  cases added
  refine ⟨?_, ?_, ?_, ?_⟩
  · rw [List.map_append, List.map_singleton, positionMap_append_singleton, h.positions]
  · rw [runningSum_map_append_singleton, add_value htotal, h.total]
  · rw [runningSum_map_append_singleton, add_value hborrow, mul_value hlent, h.borrowLimit]
  · rw [runningSum_map_append_singleton, add_value hliquidation, mul_value hbacked,
      h.liquidationLimit]

theorem Market.valueDeposits_sums {m : Market} {a : ObligationAccount} {rates : Option RateMap}
    {d : DepositStats} (h : m.valueDeposits a rates = .ok d) :
    ∃ vs, a.usedDeposits.mapM (CollateralSlot.valued m a.elevationGroup rates) = .ok vs ∧
      d.toDepositTotals.SumOf vs := by
  obtain ⟨t, run, h⟩ := bind_eq_ok_iff.mp h
  obtain ⟨ltv, -, h⟩ := bind_eq_ok_iff.mp h
  cases h
  have step : DepositTotals.addSlot m a.elevationGroup rates = fun t slot =>
      slot.valued m a.elevationGroup rates >>= fun v => t.addValue v.1 v.2 := by
    funext t slot
    exact DepositTotals.addSlot_eq m a.elevationGroup rates t slot
  rw [step, foldlM_bind_eq_ok_iff] at run
  obtain ⟨vs, valued, run⟩ := run
  refine ⟨vs, valued, ?_⟩
  have start : ({} : DepositTotals).SumOf [] :=
    ⟨rfl, Decimal.toRat_zero, Decimal.toRat_zero, Decimal.toRat_zero⟩
  exact foldlM_induction (P := fun done t => t.SumOf done)
    (fun _ _ v _ h added => h.addValue v added) start run

theorem BorrowStats.addValue_overflowOnly (t : BorrowStats) (weight : Decimal) (p : Position) :
    (t.addValue weight p).OverflowOnly :=
  (add_overflowOnly _ _).bind fun _ _ => (mul_overflowOnly _ _).bind fun _ _ =>
    (add_overflowOnly _ _).bind fun _ _ => .pure _

structure BorrowStats.SumOf (t : BorrowStats) (vs : List (Decimal × Position)) : Prop where
  positions : t.positions = positionMap (vs.map (·.2))
  total : t.total.toRat = runningSum (vs.map fun v => v.2.value.toRat)
  weighted : t.weighted.toRat =
    runningSum (vs.map fun v => truncate (v.2.value.toRat * v.1.toRat))

theorem BorrowStats.SumOf.addValue {done : List (Decimal × Position)} {t next : BorrowStats}
    (v : Decimal × Position) (h : t.SumOf done) (added : t.addValue v.1 v.2 = .ok next) :
    next.SumOf (done ++ [v]) := by
  unfold BorrowStats.addValue at added
  simp only [bind_eq_ok_iff] at added
  obtain ⟨total, htotal, share, hshare, weighted, hweighted, added⟩ := added
  cases added
  refine ⟨?_, ?_, ?_⟩
  · rw [List.map_append, List.map_singleton, positionMap_append_singleton, h.positions]
  · rw [runningSum_map_append_singleton, add_value htotal, h.total]
  · rw [runningSum_map_append_singleton, add_value hweighted, mul_value hshare, h.weighted]

theorem Market.valueBorrows_sums {m : Market} {a : ObligationAccount} {rates : Option RateMap}
    {b : BorrowStats} (h : m.valueBorrows a rates = .ok b) :
    ∃ vs, a.usedBorrows.mapM (DebtSlot.valued m a.elevationGroup rates) = .ok vs ∧ b.SumOf vs := by
  have step : BorrowStats.addSlot m a.elevationGroup rates = fun t slot =>
      slot.valued m a.elevationGroup rates >>= fun v => t.addValue v.1 v.2 := by
    funext t slot
    exact BorrowStats.addSlot_eq m a.elevationGroup rates t slot
  unfold valueBorrows at h
  rw [step, foldlM_bind_eq_ok_iff] at h
  obtain ⟨vs, valued, run⟩ := h
  refine ⟨vs, valued, ?_⟩
  have start : ({} : BorrowStats).SumOf [] := ⟨rfl, Decimal.toRat_zero, Decimal.toRat_zero⟩
  exact foldlM_induction (P := fun done t => t.SumOf done)
    (fun _ _ v _ h added => h.addValue v added) start run

structure Obligation.SumOf (o : Obligation) (ds : List (CollateralTerms × Position))
    (bs : List (Decimal × Position)) : Prop where
  deposits : o.deposits = positionMap (ds.map (·.2))
  borrows : o.borrows = positionMap (bs.map (·.2))
  totalDeposit : o.stats.totalDeposit.toRat = runningSum (ds.map fun v => v.2.value.toRat)
  borrowLimit : o.stats.borrowLimit.toRat =
    runningSum (ds.map fun v => truncate (v.2.value.toRat * v.1.loanToValue.toRat))
  liquidationLimit : o.stats.liquidationLimit.toRat =
    runningSum (ds.map fun v => truncate (v.2.value.toRat * v.1.liquidationThreshold.toRat))
  totalBorrow : o.stats.totalBorrow.toRat = runningSum (bs.map fun v => v.2.value.toRat)
  weightedBorrow : o.stats.weightedBorrow.toRat =
    runningSum (bs.map fun v => truncate (v.2.value.toRat * v.1.toRat))

section
variable {m : Market} {address : String} {a : ObligationAccount} {cr br : Option RateMap}

theorem Obligation.value_sums {o : Obligation} (h : value m address a cr br = .ok o) :
    o.account = a ∧ ∃ ds bs,
      a.usedDeposits.mapM (CollateralSlot.valued m a.elevationGroup cr) = .ok ds ∧
      a.usedBorrows.mapM (DebtSlot.valued m a.elevationGroup br) = .ok bs ∧ o.SumOf ds bs := by
  unfold value at h
  simp only [bind_eq_ok_iff] at h
  obtain ⟨groups, -, d, hd, b, hb, net, -, utilization, -, ltv, -, leverage, -, h⟩ := h
  cases h
  obtain ⟨ds, valued, deposits⟩ := Market.valueDeposits_sums hd
  obtain ⟨bs, owed, borrows⟩ := Market.valueBorrows_sums hb
  exact ⟨rfl, ds, bs, valued, owed, deposits.positions, borrows.positions, deposits.total,
    deposits.borrowLimit, deposits.liquidationLimit, borrows.total, borrows.weighted⟩

theorem Market.valueDeposits_faultsIn {P : Fault → Prop} (overflow : P .overflow)
    (deposits : ∀ s ∈ a.usedDeposits, (s.valued m a.elevationGroup cr).FaultsIn P) :
    (m.valueDeposits a cr).FaultsIn P := by
  refine .bind (foldlM_faultsIn (fun s used t => ?_) _) fun _ _ =>
    .bind ((ratioOrZero_overflowOnly _ _).faultsIn overflow) fun _ _ => .pure _
  rw [DepositTotals.addSlot_eq]
  exact .bind (deposits s used) fun _ _ =>
    (DepositTotals.addValue_overflowOnly _ _ _).faultsIn overflow

theorem Market.valueBorrows_faultsIn {P : Fault → Prop} (overflow : P .overflow)
    (borrows : ∀ s ∈ a.usedBorrows, (s.valued m a.elevationGroup br).FaultsIn P) :
    (m.valueBorrows a br).FaultsIn P := by
  refine foldlM_faultsIn (fun s used t => ?_) _
  rw [BorrowStats.addSlot_eq]
  exact .bind (borrows s used) fun _ _ =>
    (BorrowStats.addValue_overflowOnly _ _ _).faultsIn overflow

theorem Market.exists_potentialGroups
    (reserves : ∀ reserve ∈ a.reserves, ∃ r, m.reserveAt? reserve = some r) :
    ∃ groups, m.potentialGroups a = .ok groups := by
  have each : ∀ reserve ∈ a.reserves, ∃ r, m.reserveAt reserve = .ok r := fun reserve listed =>
    (reserves reserve listed).imp fun r found => ofOption_eq_ok_iff.mpr found
  obtain ⟨found, given⟩ := exists_mapM_eq_ok_iff.mpr each
  exact ⟨_, bind_eq_ok_iff.mpr ⟨found, given, rfl⟩⟩

/-- With its reserves on the market, an obligation is valued as far as its slots are. -/
theorem Obligation.value_faultsIn {P : Fault → Prop} (overflow : P .overflow)
    (reserves : ∀ reserve ∈ a.reserves, ∃ r, m.reserveAt? reserve = some r)
    (deposits : (m.valueDeposits a cr).FaultsIn P) (borrows : (m.valueBorrows a br).FaultsIn P) :
    (value m address a cr br).FaultsIn P := by
  obtain ⟨groups, given⟩ := Market.exists_potentialGroups reserves
  exact .bind (.of_eq given) fun _ _ => deposits.bind fun _ _ => borrows.bind fun _ _ =>
    .bind ((sub_overflowOnly _ _).faultsIn overflow) fun _ _ =>
    .bind ((ratioOrZero_overflowOnly _ _).faultsIn overflow) fun _ _ =>
    .bind ((ratioOrZero_overflowOnly _ _).faultsIn overflow) fun _ _ =>
    .bind ((ratioOrZero_overflowOnly _ _).faultsIn overflow) fun _ _ => .pure _

/-- Slots that can be valued make an obligation that can, up to an overflow. -/
theorem Obligation.value_overflowOnly
    (deposits : ∀ s ∈ a.usedDeposits, (s.valued m a.elevationGroup cr).OverflowOnly ∧
      ∃ r, m.reserveAt? s.reserve = some r)
    (borrows : ∀ s ∈ a.usedBorrows, (s.valued m a.elevationGroup br).OverflowOnly ∧
      ∃ r, m.reserveAt? s.reserve = some r) :
    (value m address a cr br).OverflowOnly := by
  refine value_faultsIn rfl (fun reserve listed => ?_)
    (Market.valueDeposits_faultsIn rfl fun s used => (deposits s used).1)
    (Market.valueBorrows_faultsIn rfl fun s used => (borrows s used).1)
  rcases List.mem_append.mp (List.mem_eraseDups.mp listed) with held | owed
  · obtain ⟨s, used, rfl⟩ := List.mem_map.mp held
    exact (deposits s used).2
  · obtain ⟨s, used, rfl⟩ := List.mem_map.mp owed
    exact (borrows s used).2

end

end Lending
