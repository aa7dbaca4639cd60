/-
  Lending.Proofs.Outcome — lists of computations.

  A list of computations gives a value exactly if each of them does (`mapM_eq_ok_iff`). Two
  folds whose steps agree on the list's entries agree (`foldlM_congr`). A fold whose step works
  out an entry and then adds it is the fold of the entries worked out before
  (`foldlM_bind_eq_ok_iff`). The warnings beside a result do not change it.

  `FaultsIn` says of a computation which faults can end it; it is kept by doing one such
  computation after another. A list of computations ends with the fault of the first that is
  known to fail, if none before it does (`mapM_first_error`, `foldlM_first_error`).
-/
import Lending.Warning
import Mathlib.Data.List.Forall2

namespace Lending

namespace Outcome

theorem bind_congr {o : Outcome α} {f g : α → Outcome β} (same : ∀ a, o = .ok a → f a = g a) :
    o >>= f = o >>= g := by
  cases o with
  | error fault => rfl
  | ok a => exact same a rfl

theorem exists_of_isOk {o : Outcome α} (h : o.isOk) : ∃ a, o = .ok a := by
  cases o with
  | error fault => cases h
  | ok a => exact ⟨a, rfl⟩

theorem exists_ok_iff_of_errors {o : Outcome α} {o' : Outcome β}
    (same : ∀ fault, o = .error fault ↔ o' = .error fault) :
    (∃ a, o = .ok a) ↔ ∃ b, o' = .ok b := by
  cases o with
  | error fault => simp [(same fault).mp rfl]
  | ok a =>
    cases o' with
    | error fault => cases (same fault).mpr rfl
    | ok b => simp

theorem ofOption_eq_ok_iff {fault : Fault} {found : Option α} {a : α} :
    ofOption fault found = .ok a ↔ found = some a := by
  cases found <;> simp [ofOption]

theorem map_eq_ok_iff {o : Outcome α} {f : α → β} {b : β} :
    f <$> o = .ok b ↔ ∃ a, o = .ok a ∧ f a = b := by
  cases o with
  | error fault => simp [Functor.map, Except.map]
  | ok a => simp [Functor.map, Except.map]

theorem mapM_eq_ok_iff {f : α → Outcome β} {l : List α} {results : List β} :
    l.mapM f = .ok results ↔ List.Forall₂ (fun a b => f a = .ok b) l results := by
  induction l generalizing results with
  | nil => cases results <;> simp [pure, Except.pure]
  | cons a rest ih =>
    rw [List.mapM_cons]
    simp only [bind_eq_ok_iff]
    constructor
    · rintro ⟨b, first, others, remaining, same⟩
      cases same
      exact .cons first (ih.mp remaining)
    · rintro (_ | ⟨first, remaining⟩)
      exact ⟨_, first, _, ih.mpr remaining, rfl⟩

theorem ok_bind_cons_eq_error_iff {f : α → Outcome β} {l : List α} {b : β} {fault : Fault} :
    ((.ok b : Outcome β) >>= fun b => l.mapM f >>= fun bs => pure (b :: bs)) = .error fault ↔
      l.mapM f = .error fault := by
  cases l.mapM f <;> simp [bind, Except.bind, pure, Except.pure]

theorem exists_mapM_eq_ok_iff {f : α → Outcome β} {l : List α} :
    (∃ results, l.mapM f = .ok results) ↔ ∀ a ∈ l, ∃ b, f a = .ok b := by
  constructor
  · rintro ⟨results, h⟩ a ha
    rw [mapM_eq_ok_iff] at h
    induction h with
    | nil => cases ha
    | cons first _ ih =>
      rcases List.mem_cons.mp ha with rfl | later
      · exact ⟨_, first⟩
      · exact ih later
  · intro h
    induction l with
    | nil => exact ⟨[], rfl⟩
    | cons a rest ih =>
      obtain ⟨b, first⟩ := h a List.mem_cons_self
      obtain ⟨others, remaining⟩ := ih fun c hc => h c (List.mem_cons_of_mem _ hc)
      exact ⟨b :: others, mapM_eq_ok_iff.mpr (.cons first (mapM_eq_ok_iff.mp remaining))⟩

theorem exists_of_mem_mapM {f : α → Outcome β} {l : List α} {results : List β}
    (h : l.mapM f = .ok results) {b : β} (listed : b ∈ results) : ∃ a ∈ l, f a = .ok b := by
  rw [mapM_eq_ok_iff] at h
  induction h with
  | nil => cases listed
  | cons first _ ih =>
    rcases List.mem_cons.mp listed with rfl | later
    · exact ⟨_, List.mem_cons_self, first⟩
    · obtain ⟨a, held, valued⟩ := ih later
      exact ⟨a, List.mem_cons_of_mem _ held, valued⟩

/-- Two lists, related entry by entry, that are worked out in two ways. -/
theorem forall₂_of_mapM_of_related {f : α → Outcome β} {g : α' → Outcome γ} {S : α → α' → Prop}
    {R : β → γ → Prop} {l : List α} {l' : List α'} {bs : List β} {cs : List γ}
    (hf : l.mapM f = .ok bs) (hg : l'.mapM g = .ok cs) (same : List.Forall₂ S l l')
    (related : ∀ a ∈ l, ∀ a', S a a' → ∀ b c, f a = .ok b → g a' = .ok c → R b c) :
    List.Forall₂ R bs cs := by
  rw [mapM_eq_ok_iff] at hf hg
  induction same generalizing bs cs with
  | nil =>
    cases hf
    cases hg
    exact .nil
  | cons pair _ ih =>
    rcases hf with _ | ⟨first, others⟩
    rcases hg with _ | ⟨first', others'⟩
    refine .cons (related _ List.mem_cons_self _ pair _ _ first first') (ih others others' ?_)
    exact fun a listed => related a (List.mem_cons_of_mem _ listed)

/-- Two ways of working out one list, entry by entry. -/
theorem forall₂_of_mapM {f : α → Outcome β} {g : α → Outcome γ} {R : β → γ → Prop} {l : List α}
    {bs : List β} {cs : List γ} (hf : l.mapM f = .ok bs) (hg : l.mapM g = .ok cs)
    (related : ∀ a ∈ l, ∀ b c, f a = .ok b → g a = .ok c → R b c) : List.Forall₂ R bs cs := by
  refine forall₂_of_mapM_of_related hf hg (List.forall₂_same.mpr fun _ _ => rfl) ?_
  rintro a listed _ rfl
  exact related a listed

theorem mapM_congr {f g : α → Outcome β} {l : List α} (same : ∀ a ∈ l, f a = g a) :
    l.mapM f = l.mapM g := by
  induction l with
  | nil => rfl
  | cons a rest ih =>
    rw [List.mapM_cons, List.mapM_cons, same a List.mem_cons_self,
      ih fun b hb => same b (List.mem_cons_of_mem _ hb)]

theorem mapM_replicate {f : α → Outcome β} {a : α} {b : β} (h : f a = .ok b) (n : ℕ) :
    (List.replicate n a).mapM f = .ok (List.replicate n b) := by
  induction n with
  | zero => rfl
  | succ n ih =>
    rw [List.replicate_succ, List.mapM_cons, h, ih]
    rfl

theorem foldlM_congr {f g : β → α → Outcome β} {l : List α} (same : ∀ a ∈ l, ∀ t, f t a = g t a)
    (t : β) : l.foldlM f t = l.foldlM g t := by
  induction l generalizing t with
  | nil => rfl
  | cons a rest ih =>
    rw [List.foldlM_cons, List.foldlM_cons, same a List.mem_cons_self]
    congr 1
    funext next
    exact ih (fun b hb => same b (List.mem_cons_of_mem _ hb)) next

theorem foldlM_bind_eq_ok_iff {f : α → Outcome β} {g : γ → β → Outcome γ} {l : List α}
    {t final : γ} :
    l.foldlM (fun t a => f a >>= g t) t = .ok final ↔
      ∃ results, l.mapM f = .ok results ∧ results.foldlM g t = .ok final := by
  induction l generalizing t with
  | nil => simp [pure, Except.pure]
  | cons a rest ih =>
    rw [List.foldlM_cons, List.mapM_cons]
    simp only [bind_eq_ok_iff, ih]
    constructor
    · rintro ⟨next, ⟨b, first, step⟩, others, remaining, run⟩
      refine ⟨b :: others, ⟨b, first, others, remaining, rfl⟩, ?_⟩
      rw [List.foldlM_cons]
      exact bind_eq_ok_iff.mpr ⟨next, step, run⟩
    · rintro ⟨results, ⟨b, first, others, remaining, same⟩, run⟩
      cases same
      rw [List.foldlM_cons] at run
      obtain ⟨next, step, run⟩ := bind_eq_ok_iff.mp run
      exact ⟨next, ⟨b, first, step⟩, others, remaining, run⟩

/-- A property of what was entered so far and the totals of it, kept by each step, is one of
    the whole list and the final totals. -/
theorem foldlM_induction {P : List β → γ → Prop} {g : γ → β → Outcome γ} {l : List β}
    (step : ∀ done t b next, P done t → g t b = .ok next → P (done ++ [b]) next)
    {done : List β} {t final : γ} (start : P done t) (run : l.foldlM g t = .ok final) :
    P (done ++ l) final := by
  induction l generalizing done t with
  | nil =>
    cases run
    rwa [List.append_nil]
  | cons b rest ih =>
    rw [List.foldlM_cons] at run
    obtain ⟨next, first, run⟩ := bind_eq_ok_iff.mp run
    rw [List.append_cons]
    exact ih (step done t b next start first) run

/-- What each step with an entry of the list keeps of the totals, the final ones have. -/
theorem foldlM_invariant_of_mem {P : γ → Prop} {g : γ → β → Outcome γ} {l : List β} {t final : γ}
    (step : ∀ t, ∀ b ∈ l, ∀ next, P t → g t b = .ok next → P next) (start : P t)
    (run : l.foldlM g t = .ok final) : P final := by
  induction l generalizing t with
  | nil =>
    cases run
    exact start
  | cons b rest ih =>
    rw [List.foldlM_cons] at run
    obtain ⟨next, first, run⟩ := bind_eq_ok_iff.mp run
    exact ih (fun t c listed => step t c (List.mem_cons_of_mem _ listed))
      (step t b List.mem_cons_self next start first) run

theorem foldlM_invariant {P : γ → Prop} {g : γ → β → Outcome γ} {l : List β} {t final : γ}
    (step : ∀ t b next, P t → g t b = .ok next → P next) (start : P t)
    (run : l.foldlM g t = .ok final) : P final :=
  foldlM_invariant_of_mem (fun t b _ => step t b) start run

/-! ## Faults -/

def FaultsIn (P : Fault → Prop) (o : Outcome α) : Prop := ∀ f, o = .error f → P f

theorem FaultsIn.pure {P : Fault → Prop} (a : α) : FaultsIn P (pure a : Outcome α) := by
  intro f h
  cases h

theorem FaultsIn.of_eq {P : Fault → Prop} {o : Outcome α} {a : α} (h : o = .ok a) :
    o.FaultsIn P := h ▸ FaultsIn.pure a

theorem FaultsIn.bind {P : Fault → Prop} {o : Outcome α} {next : α → Outcome β}
    (ho : o.FaultsIn P) (hn : ∀ a, o = .ok a → (next a).FaultsIn P) : (o >>= next).FaultsIn P := by
  intro f h
  cases o with
  | error fault =>
    injection h with same
    exact ho f (by rw [same])
  | ok a => exact hn a rfl f h

theorem FaultsIn.map {P : Fault → Prop} {o : Outcome α} (ho : o.FaultsIn P) (f : α → β) :
    (f <$> o).FaultsIn P := by
  rw [map_eq_pure_bind]
  exact ho.bind fun _ _ => .pure _

theorem mapM_faultsIn {P : Fault → Prop} {f : α → Outcome β} {l : List α}
    (h : ∀ a ∈ l, (f a).FaultsIn P) : (l.mapM f).FaultsIn P := by
  induction l with
  | nil => exact .pure _
  | cons a rest ih =>
    rw [List.mapM_cons]
    have others := ih fun b hb => h b (List.mem_cons_of_mem _ hb)
    exact (h a List.mem_cons_self).bind fun _ _ => others.bind fun _ _ => .pure _

theorem foldlM_faultsIn {P : Fault → Prop} {f : β → α → Outcome β} {l : List α}
    (h : ∀ a ∈ l, ∀ t, (f t a).FaultsIn P) (t : β) : (l.foldlM f t).FaultsIn P := by
  induction l generalizing t with
  | nil => exact .pure _
  | cons a rest ih =>
    rw [List.foldlM_cons]
    refine (h a List.mem_cons_self t).bind fun next _ => ?_
    exact ih (fun b hb => h b (List.mem_cons_of_mem _ hb)) next

/-- The first entry that is known to fail ends a list, unless one before it does. -/
theorem mapM_first_error {P : Fault → Prop} {f : α → Outcome β} {fails : α → Bool} {l : List α}
    {x : α} {fault : Fault} (first : l.find? fails = some x) (failed : f x = .error fault)
    (others : ∀ a ∈ l, fails a = false → (f a).FaultsIn P) :
    ∃ g, l.mapM f = .error g ∧ (P g ∨ g = fault) := by
  induction l with
  | nil => cases first
  | cons a rest ih =>
    rw [List.mapM_cons]
    cases known : fails a with
    | true =>
      rw [List.find?_cons_of_pos known] at first
      cases first
      rw [failed]
      exact ⟨fault, rfl, .inr rfl⟩
    | false =>
      rw [List.find?_cons_of_neg (by simp [known])] at first
      obtain ⟨g, later, why⟩ := ih first fun b hb => others b (List.mem_cons_of_mem _ hb)
      cases own : f a with
      | error g => exact ⟨g, rfl, .inl (others a List.mem_cons_self known g own)⟩
      | ok b =>
        refine ⟨g, ?_, why⟩
        rw [later]
        rfl

/-- Steps that fail for a reason of their entry, whatever was done before, end with that of the
    first entry that has one. -/
theorem foldlM_first_error {P : Fault → Prop} {f : β → α → Outcome β} {reason : α → Option Fault}
    (fails : ∀ t a fault, reason a = some fault → ∃ g, f t a = .error g ∧ (P g ∨ g = fault))
    (others : ∀ t a, reason a = none → (f t a).FaultsIn P) {l : List α} {fault : Fault}
    (first : l.findSome? reason = some fault) (t : β) :
    ∃ g, l.foldlM f t = .error g ∧ (P g ∨ g = fault) := by
  induction l generalizing t with
  | nil => cases first
  | cons a rest ih =>
    rw [List.foldlM_cons]
    cases known : reason a with
    | some own =>
      rw [List.findSome?_cons_of_isSome (by rw [known]; rfl), known] at first
      cases first
      obtain ⟨g, failed, why⟩ := fails t a fault known
      rw [failed]
      exact ⟨g, rfl, why⟩
    | none =>
      rw [List.findSome?_cons_of_isNone (by rw [known]; rfl)] at first
      cases step : f t a with
      | error g => exact ⟨g, rfl, .inl (others t a known g step)⟩
      | ok next => exact ih first next

end Outcome

/-! ## With warnings -/

namespace Logged

theorem bind_outcome_eq_ok_iff {l : Logged α} {f : α → Logged β} {b : β} :
    (l >>= f).outcome = .ok b ↔ ∃ a, l.outcome = .ok a ∧ (f a).outcome = .ok b := by
  obtain ⟨warnings, fault | a⟩ := l
  · simp [bind, Logged.bind]
  · simp [bind, Logged.bind]

theorem map_outcome (f : α → β) (l : Logged α) : (f <$> l).outcome = f <$> l.outcome := by
  obtain ⟨warnings, fault | a⟩ := l <;> rfl

end Logged

end Lending
