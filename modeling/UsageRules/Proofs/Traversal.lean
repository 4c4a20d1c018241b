import Mathlib.Data.List.Forall2

/-! Traversals that can fail, and searches. Traversals succeed if every step does (`mapM_eq_ok_iff`,
`exists_mapM_eq_ok`) and fail as one of the steps does (`exists_of_mapM_eq_error`). What is related
step by step stays related when the results are joined (`forall₂_flatMap_flatten`) or those without
a value are left out (`forall₂_filter_filterMap`). Members of either list have a partner in the
other (`exists_mem_right`, `exists_mem_left`). A traversal that leaves out what has no value
collects the values (`mem_of_filterMapM_eq_ok`), or fails as one of its steps does
(`exists_of_filterMapM_eq_error`). A search through a list in order finds what no other element with
the property comes before (`find?_eq_some_iff_of_pairwise`). -/

namespace UsageRules

variable {α β ε : Type}

theorem bind_eq_ok_iff {x : Except ε α} {next : α → Except ε β} {b : β} :
    x >>= next = .ok b ↔ ∃ a, x = .ok a ∧ next a = .ok b := by
  cases x <;> simp [bind, Except.bind]

theorem mapError_eq_ok_iff {δ : Type} {x : Except ε α} {f : ε → δ} {a : α} :
    x.mapError f = .ok a ↔ x = .ok a := by
  cases x <;> simp [Except.mapError]

theorem exists_mapM_eq_ok {step : α → Except ε β} {P : α → β → Prop} {l : List α}
    (h : ∀ a ∈ l, ∃ b, step a = .ok b ∧ P a b) :
    ∃ bs, l.mapM step = .ok bs ∧ List.Forall₂ P l bs := by
  induction l with
  | nil => exact ⟨[], rfl, .nil⟩
  | cons a l ih =>
    obtain ⟨b, hb, hP⟩ := h a List.mem_cons_self
    obtain ⟨bs, hbs, hall⟩ := ih fun a' ha' => h a' (List.mem_cons_of_mem a ha')
    refine ⟨b :: bs, ?_, .cons hP hall⟩
    rw [List.mapM_cons, hb, hbs]
    rfl

theorem mapM_eq_ok_iff {step : α → Except ε β} {l : List α} {bs : List β} :
    l.mapM step = .ok bs ↔ List.Forall₂ (fun a b => step a = .ok b) l bs := by
  induction l generalizing bs with
  | nil =>
    rw [List.forall₂_nil_left_iff]
    exact ⟨fun h => by cases h; rfl, fun h => h ▸ rfl⟩
  | cons a l ih =>
    simp only [List.mapM_cons, bind_eq_ok_iff, ih, List.forall₂_cons_left_iff]
    constructor
    · rintro ⟨b, hb, rest, hrest, heq⟩
      cases heq
      exact ⟨b, rest, hb, hrest, rfl⟩
    · rintro ⟨b, rest, hb, hrest, rfl⟩
      exact ⟨b, hb, rest, hrest, rfl⟩

theorem exists_of_mapM_eq_error {step : α → Except ε β} {l : List α} {e : ε}
    (h : l.mapM step = .error e) : ∃ a ∈ l, step a = .error e := by
  induction l with
  | nil => cases h
  | cons a l ih =>
    rw [List.mapM_cons] at h
    cases ha : step a with
    | error e' =>
      rw [ha] at h
      cases h
      exact ⟨a, List.mem_cons_self, ha⟩
    | ok b =>
      cases hrest : l.mapM step with
      | error e' =>
        rw [ha, hrest] at h
        cases h
        obtain ⟨a', ha', hfail⟩ := ih hrest
        exact ⟨a', List.mem_cons_of_mem a ha', hfail⟩
      | ok bs =>
        rw [ha, hrest] at h
        cases h

section FilterMapM

variable {step : α → Except ε (Option β)} {l : List α}

theorem mem_of_filterMapM_eq_ok {bs : List β} (h : l.filterMapM step = .ok bs) {b : β} :
    b ∈ bs ↔ ∃ a ∈ l, step a = .ok (some b) := by
  induction l generalizing bs with
  | nil =>
    cases h
    simp
  | cons a l ih =>
    rw [List.filterMapM_cons] at h
    cases ha : step a with
    | error e =>
      rw [ha] at h
      cases h
    | ok o =>
      cases hrest : l.filterMapM step with
      | error e =>
        rw [ha, hrest] at h
        cases o <;> cases h
      | ok rest =>
        rw [ha, hrest] at h
        cases o with
        | none =>
          cases h
          simp [ih hrest, ha]
        | some b' =>
          cases h
          simp [ih hrest, ha, eq_comm]

theorem exists_of_filterMapM_eq_error {e : ε} (h : l.filterMapM step = .error e) :
    ∃ a ∈ l, step a = .error e := by
  induction l with
  | nil => cases h
  | cons a l ih =>
    rw [List.filterMapM_cons] at h
    cases ha : step a with
    | error e' =>
      rw [ha] at h
      cases h
      exact ⟨a, List.mem_cons_self, ha⟩
    | ok o =>
      cases hrest : l.filterMapM step with
      | error e' =>
        have heq : e' = e := by
          rw [ha, hrest] at h
          cases o <;> exact Except.error.inj h
        obtain ⟨a', ha', hfail⟩ := ih (heq ▸ hrest)
        exact ⟨a', List.mem_cons_of_mem a ha', hfail⟩
      | ok rest =>
        rw [ha, hrest] at h
        cases o <;> cases h

theorem exists_step_of_filterMapM_eq_ok {bs : List β} (h : l.filterMapM step = .ok bs) {a : α}
    (ha : a ∈ l) : ∃ o, step a = .ok o := by
  induction l generalizing bs with
  | nil => cases ha
  | cons a' l ih =>
    rw [List.filterMapM_cons] at h
    obtain ⟨o, ho, hrest⟩ := bind_eq_ok_iff.mp h
    rcases List.mem_cons.mp ha with rfl | ha
    · exact ⟨o, ho⟩
    · cases o with
      | none => exact ih hrest ha
      | some b =>
        obtain ⟨rest, hrest, -⟩ := bind_eq_ok_iff.mp hrest
        exact ih hrest ha

end FilterMapM

variable {γ : Type} {R : γ → β → Prop}

theorem exists_mem_right {l : List γ} {bs : List β} (h : List.Forall₂ R l bs) {c : γ}
    (hc : c ∈ l) : ∃ b ∈ bs, R c b := by
  induction h with
  | nil => cases hc
  | cons hR _ ih =>
    rcases List.mem_cons.mp hc with rfl | hc
    · exact ⟨_, List.mem_cons_self, hR⟩
    · obtain ⟨b, hb, hR'⟩ := ih hc
      exact ⟨b, List.mem_cons_of_mem _ hb, hR'⟩

theorem exists_mem_left {l : List γ} {bs : List β} (h : List.Forall₂ R l bs) {b : β}
    (hb : b ∈ bs) : ∃ c ∈ l, R c b := exists_mem_right h.flip hb

theorem forall₂_flatMap_flatten {parts : α → List γ} {l : List α} {results : List (List β)}
    (h : List.Forall₂ (fun a bs => List.Forall₂ R (parts a) bs) l results) :
    List.Forall₂ R (l.flatMap parts) results.flatten :=
  List.rel_flatten (List.forall₂_map_left_iff.mpr h)

theorem forall₂_filter_filterMap {p : γ → Bool} {l : List γ} {results : List (Option β)}
    (h : List.Forall₂ (fun c o => if p c = true then ∃ b, o = some b ∧ R c b else o = none) l
      results) :
    List.Forall₂ R (l.filter p) (results.filterMap fun o => o) := by
  induction h with
  | nil => exact .nil
  | @cons c o l results hc _ ih =>
    by_cases hp : p c = true
    · rw [if_pos hp] at hc
      obtain ⟨b, rfl, hb⟩ := hc
      rw [List.filter_cons_of_pos hp]
      exact .cons hb ih
    · rw [if_neg hp] at hc
      subst hc
      rw [List.filter_cons_of_neg hp]
      exact ih

theorem flatMap_eq_of_forall₂ {l : List α} {results : List β} {parts : α → List γ}
    {parts' : β → List γ} (h : List.Forall₂ (fun a b => parts' b = parts a) l results) :
    results.flatMap parts' = l.flatMap parts := by
  induction h with
  | nil => rfl
  | cons heq _ ih => rw [List.flatMap_cons, List.flatMap_cons, heq, ih]

section Searches

variable {before : α → α → Prop} {l : List α} {p : α → Bool} {a : α}

/-- A search through a list in order finds the one element that no other with the property comes
before. -/
theorem find?_eq_some_iff_of_pairwise (hasymm : ∀ a b, before a b → ¬before b a)
    (hl : l.Pairwise before) :
    l.find? p = some a ↔ a ∈ l ∧ p a = true ∧ ∀ b ∈ l, p b = true → ¬before b a := by
  constructor
  · intro hfind
    obtain ⟨ha, l₁, l₂, rfl, hnot⟩ := List.find?_eq_some_iff_append.mp hfind
    refine ⟨by simp, ha, fun b hb hp => ?_⟩
    rcases List.mem_append.mp hb with hb | hb
    · exact absurd hp (by simpa using hnot b hb)
    rcases List.mem_cons.mp hb with rfl | hb
    · exact fun hself => hasymm _ _ hself hself
    · exact hasymm _ _ ((List.pairwise_cons.mp (List.pairwise_append.mp hl).2.1).1 b hb)
  · rintro ⟨ha, hp, hfirst⟩
    cases hfind : l.find? p with
    | none => exact absurd hp (List.find?_eq_none.mp hfind a ha)
    | some b =>
      obtain ⟨hpb, l₁, l₂, rfl, hnot⟩ := List.find?_eq_some_iff_append.mp hfind
      rcases List.mem_append.mp ha with ha | ha
      · exact absurd hp (by simpa using hnot a ha)
      rcases List.mem_cons.mp ha with rfl | ha
      · rfl
      · have hba := (List.pairwise_cons.mp (List.pairwise_append.mp hl).2.1).1 a ha
        exact absurd hba (hfirst b (by simp) hpb)

/-- What a search with a default gives: something of the first element with the property, or the
default if there is none. -/
theorem getD_map_find?_eq_iff (hasymm : ∀ a b, before a b → ¬before b a) (hl : l.Pairwise before)
    {f : α → β} {default b : β} :
    ((l.find? p).map f).getD default = b ↔
      (∃ a ∈ l, p a = true ∧ f a = b ∧ ∀ a' ∈ l, p a' = true → ¬before a' a) ∨
        (b = default ∧ ∀ a ∈ l, ¬p a = true) := by
  cases hfind : l.find? p with
  | some a =>
    obtain ⟨ha, hp, hfirst⟩ := (find?_eq_some_iff_of_pairwise hasymm hl).mp hfind
    rw [Option.map_some, Option.getD_some]
    constructor
    · exact fun heq => .inl ⟨a, ha, hp, heq, hfirst⟩
    · rintro (⟨a', ha', hp', rfl, hfirst'⟩ | ⟨-, hnone⟩)
      · rw [(find?_eq_some_iff_of_pairwise hasymm hl).mpr ⟨ha', hp', hfirst'⟩] at hfind
        rw [Option.some.inj hfind]
      · exact absurd hp (hnone a ha)
  | none =>
    have hnone := List.find?_eq_none.mp hfind
    rw [Option.map_none, Option.getD_none]
    constructor
    · exact fun heq => .inr ⟨heq.symm, hnone⟩
    · rintro (⟨a, ha, hp, -⟩ | ⟨rfl, -⟩)
      · exact absurd hp (hnone a ha)
      · rfl

end Searches

end UsageRules
