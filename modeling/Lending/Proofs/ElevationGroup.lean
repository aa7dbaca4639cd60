/-
  Lending.Proofs.ElevationGroup — the groups that several reserves have in common.

  `commonGroups` counts occurrences and keeps the groups that occur as often as there are lists.
  Since no list contributes a group twice (`nodup_ownGroups`), the count of a group is the number
  of lists it is in (`count_occurrences`), and a group that occurs in every list occurs in the
  first: so the common groups are those of the first list that are in all others
  (`commonGroups_cons`), in the order in which that list has them
  (`pairwise_idxOf_commonGroups`). `Restated` tells a list that only says again what it said
  before, or says what does not count; that changes no groups (`Restated.ownGroups`).
-/
import Lending.ElevationGroup
import Mathlib.Data.List.Induction
import Mathlib.Tactic

namespace Lending

section
variable {α : Type} [DecidableEq α]

/-! ## Entries each once -/

theorem eraseDups_concat (l : List α) (x : α) :
    (l ++ [x]).eraseDups = if x ∈ l then l.eraseDups else l.eraseDups ++ [x] := by
  rw [List.eraseDups_append]
  by_cases listed : x ∈ l
  · simp [List.removeAll, listed]
  · simp [List.removeAll, listed, List.eraseDups_cons]

theorem eraseDups_of_nodup {l : List α} (distinct : l.Nodup) : l.eraseDups = l := by
  induction l using List.reverseRecOn with
  | nil => rfl
  | append_singleton l x ih =>
    rw [← List.concat_eq_append, List.nodup_concat] at distinct
    rw [eraseDups_concat, if_neg distinct.1, ih distinct.2]

/-- An entry that stands further up already does not come again. -/
theorem eraseDups_append_cons {before : List α} {x : α} (held : x ∈ before) (after : List α) :
    (before ++ x :: after).eraseDups = (before ++ after).eraseDups := by
  have dropped : (x :: after).removeAll before = after.removeAll before := by
    unfold List.removeAll
    rw [List.filter_cons_of_neg]
    simp [held]
  rw [List.eraseDups_append, List.eraseDups_append, dropped]

/-- They stand in the order of their first appearance. -/
theorem pairwise_idxOf_eraseDups (l : List α) :
    l.eraseDups.Pairwise fun x y => l.idxOf x < l.idxOf y := by
  induction l using List.reverseRecOn with
  | nil => exact .nil
  | append_singleton l z ih =>
    have kept : l.eraseDups.Pairwise fun x y => (l ++ [z]).idxOf x < (l ++ [z]).idxOf y := by
      refine ih.imp_of_mem fun hx hy before => ?_
      rwa [List.idxOf_append_of_mem (List.mem_eraseDups.mp hx),
        List.idxOf_append_of_mem (List.mem_eraseDups.mp hy)]
    rw [eraseDups_concat]
    by_cases listed : z ∈ l
    · rwa [if_pos listed]
    · rw [if_neg listed, List.pairwise_append]
      refine ⟨kept, List.pairwise_singleton _ _, ?_⟩
      intro x hx y last
      have held := List.mem_eraseDups.mp hx
      rw [List.mem_singleton] at last
      rw [last, List.idxOf_append_of_mem held, List.idxOf_append_of_notMem listed]
      have inside := List.idxOf_lt_length_of_mem held
      omega

theorem nodup_eraseDups (l : List α) : l.eraseDups.Nodup := by
  refine (pairwise_idxOf_eraseDups l).imp fun before same => ?_
  rw [same] at before
  exact lt_irrefl _ before

theorem filter_eraseDups (keep : α → Bool) (l : List α) :
    l.eraseDups.filter keep = (l.filter keep).eraseDups := by
  induction l using List.reverseRecOn with
  | nil => rfl
  | append_singleton l z ih =>
    rw [eraseDups_concat, List.filter_append]
    by_cases kept : keep z
    · rw [List.filter_cons_of_pos kept, List.filter_nil, eraseDups_concat]
      by_cases listed : z ∈ l
      · rw [if_pos listed, if_pos (List.mem_filter.mpr ⟨listed, kept⟩), ih]
      · have absent : z ∉ l.filter keep := fun held => listed (List.mem_of_mem_filter held)
        rw [if_neg listed, if_neg absent, List.filter_append, ih, List.filter_cons_of_pos kept,
          List.filter_nil]
    · rw [List.filter_cons_of_neg kept, List.filter_nil, List.append_nil, ← ih]
      by_cases listed : z ∈ l
      · rw [if_pos listed]
      · rw [if_neg listed, List.filter_append, List.filter_cons_of_neg kept, List.filter_nil,
          List.append_nil]

/-! ## Said again -/

/-- The second list is the first with entries put in that stand further up already, or that do
    not count. -/
inductive Restated (idle : α → Prop) : List α → List α → Prop where
  | refl (l : List α) : Restated idle l l
  | insert {l : List α} (before : List α) (x : α) (after : List α)
      (rest : Restated idle l (before ++ after)) (more : x ∈ before ∨ idle x) :
      Restated idle l (before ++ x :: after)

/-- Of what counts, each once, nothing changes. -/
theorem Restated.eraseDups {idle : α → Prop} {counts : α → Bool} {l l' : List α}
    (h : Restated idle l l') (ignored : ∀ x, idle x → counts x = false) :
    (l'.filter counts).eraseDups = (l.filter counts).eraseDups := by
  induction h with
  | refl => rfl
  | insert before x after _ more ih =>
    rw [← ih, List.filter_append, List.filter_append, List.filter_cons]
    by_cases counted : counts x
    · have again : x ∈ before.filter counts := by
        rcases more with held | ignore
        · exact List.mem_filter.mpr ⟨held, counted⟩
        · rw [ignored x ignore] at counted
          cases counted
      rw [if_pos counted, eraseDups_append_cons again]
    · rw [if_neg counted]

end

/-! ## Groups -/

theorem ownGroups_eq (listed : List ℤ) : ownGroups listed = (listed.filter (· != 0)).eraseDups :=
  filter_eraseDups _ _

theorem mem_ownGroups {listed : List ℤ} {g : ℤ} : g ∈ ownGroups listed ↔ g ∈ listed ∧ g ≠ 0 := by
  simp [ownGroups]

theorem nodup_ownGroups (listed : List ℤ) : (ownGroups listed).Nodup :=
  (nodup_eraseDups listed).filter _

theorem pairwise_idxOf_ownGroups (listed : List ℤ) :
    (ownGroups listed).Pairwise fun g h => listed.idxOf g < listed.idxOf h :=
  (pairwise_idxOf_eraseDups listed).filter _

theorem Restated.ownGroups {listed listed' : List ℤ} (h : Restated (· = 0) listed listed') :
    ownGroups listed' = ownGroups listed := by
  rw [ownGroups_eq, ownGroups_eq]
  exact h.eraseDups fun g none => by simp [none]

/-- A list contributes each of its groups once. -/
theorem count_occurrences (lists : List (List ℤ)) (g : ℤ) :
    (lists.flatMap ownGroups).count g = lists.countP fun listed => g ∈ ownGroups listed := by
  induction lists with
  | nil => rfl
  | cons listed rest ih =>
    rw [List.flatMap_cons, List.count_append, ih, List.countP_cons, add_comm]
    congr 1
    by_cases own : g ∈ ownGroups listed
    · rw [List.count_eq_one_of_mem (nodup_ownGroups listed) own]
      simp [own]
    · rw [List.count_eq_zero_of_not_mem own]
      simp [own]

/-- What is in every list is in the first. -/
theorem commonGroups_cons (first : List ℤ) (rest : List (List ℤ)) :
    commonGroups (first :: rest) =
      (ownGroups first).filter fun g => ∀ listed ∈ rest, g ∈ ownGroups listed := by
  have counted (g : ℤ) : ((first :: rest).flatMap ownGroups).count g = (first :: rest).length ↔
      g ∈ ownGroups first ∧ ∀ listed ∈ rest, g ∈ ownGroups listed := by
    rw [count_occurrences, List.countP_eq_length]
    simp
  unfold commonGroups
  simp only [List.flatMap_cons] at counted ⊢
  rw [List.eraseDups_append, List.filter_append]
  have later : ((rest.flatMap ownGroups).removeAll (ownGroups first)).eraseDups.filter
      (fun g => (ownGroups first ++ rest.flatMap ownGroups).count g == (first :: rest).length) =
        [] := by
    rw [List.filter_eq_nil_iff]
    intro g held all
    have outside : g ∉ ownGroups first := by
      have kept := List.mem_eraseDups.mp held
      simp only [List.removeAll, List.mem_filter] at kept
      simpa using kept.2
    exact outside ((counted g).mp (by simpa using all)).1
  rw [later, List.append_nil, eraseDups_of_nodup (nodup_ownGroups first)]
  refine List.filter_congr fun g own => ?_
  rw [beq_eq_decide, decide_eq_decide, counted g]
  simp [own]

theorem mem_commonGroups_iff {lists : List (List ℤ)} {g : ℤ} :
    g ∈ commonGroups lists ↔ g ≠ 0 ∧ lists ≠ [] ∧ ∀ listed ∈ lists, g ∈ listed := by
  cases lists with
  | nil => simp [commonGroups]
  | cons first rest =>
    rw [commonGroups_cons, List.mem_filter, decide_eq_true_eq, List.forall_mem_cons]
    simp only [mem_ownGroups]
    constructor
    · rintro ⟨⟨own, group⟩, others⟩
      exact ⟨group, List.cons_ne_nil _ _, own, fun listed later => (others listed later).1⟩
    · rintro ⟨group, -, own, others⟩
      exact ⟨⟨own, group⟩, fun listed later => ⟨others listed later, group⟩⟩

theorem nodup_commonGroups (lists : List (List ℤ)) : (commonGroups lists).Nodup :=
  (nodup_eraseDups _).filter _

theorem pairwise_idxOf_commonGroups (first : List ℤ) (rest : List (List ℤ)) :
    (commonGroups (first :: rest)).Pairwise fun g h => first.idxOf g < first.idxOf h := by
  rw [commonGroups_cons]
  exact (pairwise_idxOf_ownGroups first).filter _

/-- Of the lists only the groups they contribute count. -/
theorem commonGroups_congr {lists lists' : List (List ℤ)}
    (same : lists'.map ownGroups = lists.map ownGroups) :
    commonGroups lists' = commonGroups lists := by
  have lengths := congrArg List.length same
  rw [List.length_map, List.length_map] at lengths
  unfold commonGroups
  rw [List.flatMap_def, List.flatMap_def, same, lengths]

/-- In whatever order the lists are given, and however often. -/
theorem perm_commonGroups {lists lists' : List (List ℤ)}
    (same : ∀ listed, listed ∈ lists' ↔ listed ∈ lists) :
    (commonGroups lists').Perm (commonGroups lists) := by
  rw [List.perm_ext_iff_of_nodup (nodup_commonGroups _) (nodup_commonGroups _)]
  intro g
  have empty : lists' = [] ↔ lists = [] := by
    simp only [List.eq_nil_iff_forall_not_mem, same]
  simp only [mem_commonGroups_iff, same, ne_eq, empty]

end Lending
