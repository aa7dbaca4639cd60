/-
  Lending.Proofs.AddressMap — what a map holds after values were entered in it.

  Entered in a map are only the values given (`mem_insertEntry`, `mem_ofList`). A list in which
  no address occurs twice is kept as it is (`entries_ofList`), and a search finds each of its
  entries (`find?_of_mem`). No map that was entered value by value has an address twice
  (`nodup_addresses_insert`, `nodup_addresses_ofList`). A new value is one more beside the
  others, or takes the place of the one at its address (`perm_values_insert`), so the values
  entered are those kept and those displaced (`perm_displaced`). Maps entered side by side stay
  related, and so does what a search finds in them (`forall₂_ofList`, `rel_find?`).
-/
import Lending.AddressMap
import Mathlib.Algebra.BigOperators.Group.List.Basic
import Mathlib.Data.List.Induction
import Mathlib.Tactic.Abel

namespace Lending.AddressMap

theorem mem_of_find? {m : AddressMap α} {address : String} {v : α}
    (found : m.find? address = some v) : (address, v) ∈ m.entries := by
  obtain ⟨before, after, split, -⟩ := List.lookup_eq_some_iff.mp found
  rw [split]
  exact List.mem_append_right _ List.mem_cons_self

theorem mem_values_of_find? {m : AddressMap α} {address : String} {v : α}
    (found : m.find? address = some v) : v ∈ m.values :=
  List.mem_map.mpr ⟨_, mem_of_find? found, rfl⟩

theorem find?_of_mem {m : AddressMap α} {address : String} {v : α}
    (distinct : m.addresses.Nodup) (h : (address, v) ∈ m.entries) : m.find? address = some v := by
  obtain ⟨entries⟩ := m
  induction entries with
  | nil => cases h
  | cons entry rest ih =>
    obtain ⟨key, value⟩ := entry
    obtain ⟨fresh, distinct⟩ := List.nodup_cons.mp distinct
    refine (lookup_entry key address value rest).trans ?_
    rcases List.mem_cons.mp h with same | later
    · cases same
      exact if_pos rfl
    · rw [if_neg]
      · exact ih distinct later
      · rintro rfl
        exact fresh (List.mem_map.mpr ⟨_, later, rfl⟩)

theorem notMem_of_find?_eq_none {m : AddressMap α} {address : String}
    (none : m.find? address = none) : address ∉ m.addresses := by
  intro taken
  obtain ⟨entry, entered, rfl⟩ := List.mem_map.mp taken
  simpa using List.lookup_eq_none_iff.mp none entry entered

/-! ## Entering values -/

theorem mem_insertEntry {address : String} {v : α} {entries : List (String × α)}
    {entry : String × α} (h : entry ∈ insertEntry address v entries) :
    entry = (address, v) ∨ entry ∈ entries := by
  induction entries with
  | nil => exact .inl (List.mem_singleton.mp h)
  | cons first rest ih =>
    unfold insertEntry at h
    split at h
    · rcases List.mem_cons.mp h with same | later
      · exact .inl same
      · exact .inr (List.mem_cons_of_mem _ later)
    · rcases List.mem_cons.mp h with same | later
      · exact .inr (same ▸ List.mem_cons_self)
      · exact (ih later).imp_right (List.mem_cons_of_mem _)

/-- The entries under other addresses stay as they are. -/
theorem filter_insertEntry (address : String) (v : α) (entries : List (String × α)) :
    (insertEntry address v entries).filter (·.1 ≠ address) =
      entries.filter (·.1 ≠ address) := by
  induction entries with
  | nil => simp [insertEntry]
  | cons entry rest ih =>
    unfold insertEntry
    split
    · rename_i same
      simp [same]
    · rename_i other
      simp only [List.filter_cons, ih]

theorem insertEntry_of_fresh {address : String} {v : α} {entries : List (String × α)}
    (fresh : address ∉ entries.map (·.1)) :
    insertEntry address v entries = entries ++ [(address, v)] := by
  induction entries with
  | nil => rfl
  | cons first rest ih =>
    rw [List.map_cons, List.mem_cons, not_or] at fresh
    unfold insertEntry
    rw [if_neg (Ne.symm fresh.1), ih fresh.2]
    rfl

theorem map_insert (f : α → β) (m : AddressMap α) (address : String) (v : α) :
    (m.insert address v).map f = (m.map f).insert address (f v) := by
  obtain ⟨entries⟩ := m
  unfold map insert
  congr 1
  induction entries with
  | nil => rfl
  | cons entry rest ih =>
    simp only [insertEntry, List.map_cons]
    split
    · rfl
    · rw [List.map_cons, ih]

theorem values_map (f : α → β) (m : AddressMap α) : (m.map f).values = m.values.map f := by
  unfold values map
  rw [List.map_map, List.map_map]
  rfl

theorem map_fst_insertEntry_of_mem {address : String} {v : α} {entries : List (String × α)}
    (taken : address ∈ entries.map (·.1)) :
    (insertEntry address v entries).map (·.1) = entries.map (·.1) := by
  induction entries with
  | nil => cases taken
  | cons first rest ih =>
    unfold insertEntry
    by_cases here : first.1 = address
    · rw [if_pos here, List.map_cons, List.map_cons, here]
    · rw [if_neg here, List.map_cons, List.map_cons, ih]
      rcases List.mem_cons.mp taken with same | later
      · exact absurd same.symm here
      · exact later

/-- The addresses stay in their order; a new one goes last. -/
theorem addresses_prefix_insert (m : AddressMap α) (address : String) (v : α) :
    m.addresses <+: (m.insert address v).addresses := by
  show m.entries.map (·.1) <+: (insertEntry address v m.entries).map (·.1)
  by_cases taken : address ∈ m.entries.map (·.1)
  · refine ⟨[], ?_⟩
    rw [List.append_nil, map_fst_insertEntry_of_mem taken]
  · rw [insertEntry_of_fresh taken, List.map_append]
    exact List.prefix_append _ _

theorem nodup_addresses_insert {m : AddressMap α} (distinct : m.addresses.Nodup)
    (address : String) (v : α) : (m.insert address v).addresses.Nodup := by
  show ((insertEntry address v m.entries).map (·.1)).Nodup
  by_cases taken : address ∈ m.entries.map (·.1)
  · rw [map_fst_insertEntry_of_mem taken]
    exact distinct
  · rw [insertEntry_of_fresh taken, List.map_append, List.nodup_append]
    refine ⟨distinct, by simp, ?_⟩
    rintro held listed other last rfl
    have same : held = address := by simpa using last
    exact taken (same ▸ listed)

theorem nodup_addresses_ofList (entries : List (String × α)) :
    (ofList entries).addresses.Nodup := by
  suffices ∀ m : AddressMap α, m.addresses.Nodup →
      (entries.foldl (fun m entry => m.insert entry.1 entry.2) m).addresses.Nodup by
    exact this empty List.nodup_nil
  induction entries with
  | nil => exact fun _ distinct => distinct
  | cons first rest ih =>
    intro m distinct
    exact ih _ (nodup_addresses_insert distinct first.1 first.2)

/-- With the value whose place is taken, if there is one, no value is gained or lost. -/
theorem perm_values_insert (m : AddressMap α) (address : String) (v : α) :
    ((m.find? address).toList ++ (m.insert address v).values).Perm (v :: m.values) := by
  obtain ⟨entries⟩ := m
  show ((entries.lookup address).toList ++ (insertEntry address v entries).map (·.2)).Perm
    (v :: entries.map (·.2))
  induction entries with
  | nil => exact .refl _
  | cons first rest ih =>
    obtain ⟨key, old⟩ := first
    unfold insertEntry
    rw [lookup_entry]
    by_cases here : key = address
    · rw [if_pos here.symm, if_pos here]
      exact .swap v old _
    · rw [if_neg (Ne.symm here), if_neg here, List.map_cons, List.map_cons]
      exact (List.perm_middle.trans (ih.cons old)).trans (.swap v old _)

/-- The value whose place is taken, if there is one, goes out of the sum. -/
theorem sum_values_insert {M : Type} [AddCommGroup M] (m : AddressMap α) (address : String)
    (v : α) (figure : α → M) :
    ((m.insert address v).values.map figure).sum =
      (m.values.map figure).sum - ((m.find? address).map figure).getD 0 + figure v := by
  have same := ((perm_values_insert m address v).map figure).sum_eq
  have taken : ((m.find? address).toList.map figure).sum =
      ((m.find? address).map figure).getD 0 := by
    cases m.find? address <;> simp
  rw [List.map_append, List.sum_append, taken, List.map_cons, List.sum_cons] at same
  rw [eq_sub_of_add_eq' same]
  abel

/-- The values that lose their place to later ones as entries are entered in a map. -/
def displaced (m : AddressMap α) : List (String × α) → List α
  | [] => []
  | entry :: rest => (m.find? entry.1).toList ++ displaced (m.insert entry.1 entry.2) rest

/-- Every value that was entered is kept or displaced. -/
theorem perm_displaced (entries : List (String × α)) :
    (displaced empty entries ++ (ofList entries).values).Perm (entries.map (·.2)) := by
  suffices ∀ m : AddressMap α, (displaced m entries ++
      (entries.foldl (fun m entry => m.insert entry.1 entry.2) m).values).Perm
        (m.values ++ entries.map (·.2)) from this empty
  induction entries with
  | nil =>
    intro m
    rw [List.map_nil, List.append_nil]
    exact .refl _
  | cons first rest ih =>
    intro m
    have later := (ih (m.insert first.1 first.2)).append_left (m.find? first.1).toList
    have entered := (perm_values_insert m first.1 first.2).append_right (rest.map (·.2))
    rw [← List.append_assoc] at later
    rw [List.append_assoc] at entered
    exact (later.trans entered).trans List.perm_middle.symm

theorem ofList_append_singleton (entries : List (String × α)) (entry : String × α) :
    ofList (entries ++ [entry]) = (ofList entries).insert entry.1 entry.2 := by
  simp [ofList]

/-- A search finds the last value that was given to the address. -/
theorem find?_ofList (entries : List (String × α)) (address : String) :
    (ofList entries).find? address =
      ((entries.filter (·.1 = address)).getLast?).map (·.2) := by
  induction entries using List.reverseRecOn with
  | nil => rfl
  | append_singleton before entry ih =>
    rw [ofList_append_singleton, find?_insert, List.filter_append]
    by_cases here : entry.1 = address
    · simp [here]
    · simp [here, Ne.symm here, ih]

theorem mem_ofList {entries : List (String × α)} {entry : String × α}
    (h : entry ∈ (ofList entries).entries) : entry ∈ entries := by
  suffices ∀ m : AddressMap α,
      entry ∈ (entries.foldl (fun m entry => m.insert entry.1 entry.2) m).entries →
      entry ∈ m.entries ∨ entry ∈ entries by
    rcases this empty h with none | listed
    · cases none
    · exact listed
  clear h
  induction entries with
  | nil => exact fun _ h => .inl h
  | cons first rest ih =>
    intro m h
    rcases ih (m.insert first.1 first.2) h with entered | later
    · rcases mem_insertEntry entered with rfl | held
      · exact .inr List.mem_cons_self
      · exact .inl held
    · exact .inr (List.mem_cons_of_mem _ later)

theorem entries_ofList {entries : List (String × α)} (distinct : (entries.map (·.1)).Nodup) :
    (ofList entries).entries = entries := by
  suffices ∀ m : AddressMap α, (m.addresses ++ entries.map (·.1)).Nodup →
      (entries.foldl (fun m entry => m.insert entry.1 entry.2) m).entries = m.entries ++ entries by
    exact this empty distinct
  clear distinct
  induction entries with
  | nil => exact fun m _ => (List.append_nil m.entries).symm
  | cons first rest ih =>
    intro m distinct
    have fresh : first.1 ∉ m.entries.map (·.1) := fun taken =>
      (List.nodup_append.mp distinct).2.2 _ taken _ List.mem_cons_self rfl
    have entered : (m.insert first.1 first.2).entries = m.entries ++ [first] :=
      insertEntry_of_fresh fresh
    rw [List.foldl_cons, ih, entered, List.append_assoc]
    · rfl
    · unfold addresses
      rw [entered]
      simpa [addresses] using distinct

/-! ## Two maps side by side -/

section
variable {β : Type} {R : String × α → String × β → Prop}
  (address : ∀ entry entry', R entry entry' → entry.1 = entry'.1)
include address

theorem forall₂_insertEntry {entries : List (String × α)} {entries' : List (String × β)}
    (related : List.Forall₂ R entries entries') {entry : String × α} {entry' : String × β}
    (new : R entry entry') :
    List.Forall₂ R (insertEntry entry.1 entry.2 entries)
      (insertEntry entry'.1 entry'.2 entries') := by
  obtain ⟨key, v⟩ := entry
  obtain ⟨key', v'⟩ := entry'
  obtain rfl : key = key' := address _ _ new
  induction related with
  | nil => exact .cons new .nil
  | cons first others ih =>
    unfold insertEntry
    rw [← address _ _ first]
    split
    · exact .cons new others
    · exact .cons first ih

/-- Entered value by value, related lists give related maps. -/
theorem forall₂_ofList {entries : List (String × α)} {entries' : List (String × β)}
    (related : List.Forall₂ R entries entries') :
    List.Forall₂ R (ofList entries).entries (ofList entries').entries := by
  unfold ofList
  suffices ∀ (m : AddressMap α) (m' : AddressMap β), List.Forall₂ R m.entries m'.entries →
      List.Forall₂ R (entries.foldl (fun m entry => m.insert entry.1 entry.2) m).entries
        (entries'.foldl (fun m entry => m.insert entry.1 entry.2) m').entries from
    this empty empty .nil
  induction related with
  | nil => exact fun _ _ so_far => so_far
  | cons first _ ih => exact fun m m' so_far => ih _ _ (forall₂_insertEntry address so_far first)

end

/-- A map is related to itself with another value in the place of a related one. -/
theorem forall₂_insert_of_find? {R : α → α → Prop} {m : AddressMap α}
    (refl : ∀ v ∈ m.values, R v v) {address : String} {v v' : α}
    (found : m.find? address = some v) (new : R v v') :
    List.Forall₂ (fun entry entry' => entry.1 = entry'.1 ∧ R entry.2 entry'.2)
      m.entries (m.insert address v').entries := by
  obtain ⟨entries⟩ := m
  have same : ∀ rest : List (String × α), (∀ own ∈ rest.map (·.2), R own own) →
      List.Forall₂ (fun entry entry' => entry.1 = entry'.1 ∧ R entry.2 entry'.2) rest rest :=
    fun rest refl => List.forall₂_same.mpr fun entry held =>
      ⟨rfl, refl entry.2 (List.mem_map_of_mem held)⟩
  induction entries with
  | nil => cases found
  | cons entry rest ih =>
    obtain ⟨key, old⟩ := entry
    obtain ⟨here, there⟩ := List.forall_mem_cons.mp refl
    unfold insert insertEntry
    unfold find? at found
    rw [lookup_entry] at found
    split
    · rename_i taken
      rw [if_pos taken.symm] at found
      cases found
      exact .cons ⟨taken, new⟩ (same rest there)
    · rename_i free
      rw [if_neg (Ne.symm free)] at found
      exact .cons ⟨rfl, here⟩ (ih there found)

section
variable {β : Type} {R : α → β → Prop} {m : AddressMap α} {m' : AddressMap β}
  (related : List.Forall₂ (fun entry entry' => entry.1 = entry'.1 ∧ R entry.2 entry'.2)
    m.entries m'.entries)
include related

/-- At the same address, related maps hold related values or both none. -/
theorem rel_find? (address : String) : Option.Rel R (m.find? address) (m'.find? address) := by
  unfold find?
  generalize m.entries = entries at related
  generalize m'.entries = entries' at related
  induction related with
  | nil => exact .none
  | @cons entry entry' rest rest' first _ ih =>
    obtain ⟨key, v⟩ := entry
    obtain ⟨key', v'⟩ := entry'
    obtain ⟨rfl, here⟩ : key = key' ∧ R v v' := first
    rw [lookup_entry, lookup_entry]
    split
    · exact .some here
    · exact ih

theorem rel_find?_values {keep : α → Bool} {keep' : β → Bool}
    (same : ∀ v v', R v v' → keep v = keep' v') :
    Option.Rel R (m.values.find? keep) (m'.values.find? keep') := by
  unfold values
  generalize m.entries = entries at related
  generalize m'.entries = entries' at related
  induction related with
  | nil => exact .none
  | cons first _ ih =>
    rw [List.map_cons, List.map_cons, List.find?_cons, List.find?_cons, ← same _ _ first.2]
    split
    · exact .some first.2
    · exact ih

end

end Lending.AddressMap
