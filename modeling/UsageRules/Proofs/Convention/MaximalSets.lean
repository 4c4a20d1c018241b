import Mathlib.Data.List.Pairwise
import UsageRules.Convention.Reduction
import UsageRules.Proofs.SetSize

/-! Maximal item sets. Keeping what nothing before it contains leaves an antichain
(`eq_of_mem_maximalSets`) that covers every set of the list (`exists_maximalSets_ge`); as
the largest sets of the highest frequencies come first, what is kept is maximal and has the highest
frequency of its items (`maximal_of_mem_maximalSets`). There is only one such reduction of a list,
whatever its order (`IsReduction.map_counted_eq`). -/

namespace UsageRules

namespace FrequentSet

/-! ## The order of visits -/

theorem largestFirst_iff {f g : FrequentSet} :
    largestFirst f g = true ↔ g.size < f.size ∨ f.size = g.size ∧
      (g.frequency < f.frequency ∨
        f.frequency = g.frequency ∧ ¬g.items.toList < f.items.toList) := by
  simp [largestFirst]

theorem largestFirst_trans (f g h : FrequentSet) (hfg : largestFirst f g = true)
    (hgh : largestFirst g h = true) : largestFirst f h = true := by
  rw [largestFirst_iff] at *
  rcases hfg with hsize | ⟨hsize, hfrequency | ⟨hfrequency, hitems⟩⟩
  · left
    omega
  · rcases hgh with hsize' | ⟨hsize', hrest⟩
    · left
      omega
    · exact .inr ⟨by omega, .inl (by omega)⟩
  · rcases hgh with hsize' | ⟨hsize', hfrequency' | ⟨hfrequency', hitems'⟩⟩
    · left
      omega
    · exact .inr ⟨by omega, .inl (by omega)⟩
    · have hle := List.le_trans (List.not_lt.mp hitems) (List.not_lt.mp hitems')
      exact .inr ⟨by omega, .inr ⟨by omega, List.not_lt.mpr hle⟩⟩

theorem largestFirst_total (f g : FrequentSet) :
    (largestFirst f g || largestFirst g f) = true := by
  rw [Bool.or_eq_true, largestFirst_iff, largestFirst_iff]
  rcases Nat.lt_trichotomy f.size g.size with hsize | hsize | hsize
  · exact .inr (.inl hsize)
  · rcases Nat.lt_trichotomy f.frequency g.frequency with hfrequency | hfrequency | hfrequency
    · exact .inr (.inr ⟨hsize.symm, .inl hfrequency⟩)
    · rcases List.le_total f.items.toList g.items.toList with hitems | hitems
      · exact .inl (.inr ⟨hsize, .inr ⟨hfrequency, List.not_lt.mpr hitems⟩⟩)
      · exact .inr (.inr ⟨hsize.symm, .inr ⟨hfrequency.symm, List.not_lt.mpr hitems⟩⟩)
    · exact .inl (.inr ⟨hsize, .inl hfrequency⟩)
  · exact .inl (.inl hsize)

/-- Larger sets stand before smaller ones, then those of higher frequency, then by their items. -/
def Precedes (f g : FrequentSet) : Prop :=
  g.size < f.size ∨ f.size = g.size ∧
    (g.frequency < f.frequency ∨ f.frequency = g.frequency ∧ f.items.toList < g.items.toList)

/-- Among sets of different items the order of visits is strict. -/
theorem precedes_of_largestFirst {f g : FrequentSet} (h : largestFirst f g = true)
    (hne : f.items ≠ g.items) : f.Precedes g := by
  rcases largestFirst_iff.mp h with hsize | ⟨hsize, hfrequency | ⟨hfrequency, hitems⟩⟩
  · exact .inl hsize
  · exact .inr ⟨hsize, .inl hfrequency⟩
  · exact .inr ⟨hsize, .inr ⟨hfrequency, ItemSet.lt_of_not_lt hne hitems⟩⟩

theorem Precedes.largestFirst {f g : FrequentSet} (h : f.Precedes g) : largestFirst f g = true := by
  rcases h with hsize | ⟨hsize, hfrequency | ⟨hfrequency, hitems⟩⟩
  · exact largestFirst_iff.mpr (.inl hsize)
  · exact largestFirst_iff.mpr (.inr ⟨hsize, .inl hfrequency⟩)
  · exact largestFirst_iff.mpr (.inr ⟨hsize, .inr ⟨hfrequency, List.lt_asymm hitems⟩⟩)

theorem Precedes.asymm {f g : FrequentSet} (hfg : f.Precedes g) : ¬g.Precedes f := by
  rintro (hsize | ⟨hsize, hfrequency | ⟨hfrequency, hitems⟩⟩)
  · rcases hfg with h | ⟨h, -⟩ <;> omega
  · rcases hfg with h | ⟨-, h | ⟨h, -⟩⟩ <;> omega
  · rcases hfg with h | ⟨-, h | ⟨-, h⟩⟩
    · omega
    · omega
    · exact List.lt_asymm hitems h

/-- An item set and its frequency, without what later stages know about it. -/
def counted (f : FrequentSet) : FrequentSet := { items := f.items, frequency := f.frequency }

/-! ## Keeping what is not covered -/

section KeepUncovered

variable {kept l : List FrequentSet}

theorem exists_keepUncovered_eq_append (kept l : List FrequentSet) :
    ∃ added, keepUncovered kept l = kept ++ added ∧ added.Sublist l := by
  induction l generalizing kept with
  | nil => exact ⟨[], (List.append_nil kept).symm, .slnil⟩
  | cons f l ih =>
    rw [keepUncovered]
    split
    · obtain ⟨added, heq, hsub⟩ := ih kept
      exact ⟨added, heq, hsub.cons f⟩
    · obtain ⟨added, heq, hsub⟩ := ih (kept ++ [f])
      exact ⟨f :: added, by rw [heq, List.append_assoc]; rfl, hsub.cons_cons f⟩

theorem mem_keepUncovered_of_mem_kept {f : FrequentSet} (h : f ∈ kept) :
    f ∈ keepUncovered kept l := by
  obtain ⟨added, heq, -⟩ := exists_keepUncovered_eq_append kept l
  rw [heq]
  exact List.mem_append_left added h

/-- No set is contained in one kept before it. -/
theorem pairwise_keepUncovered (h : kept.Pairwise fun f g => ¬g.items ⊆ f.items) :
    (keepUncovered kept l).Pairwise fun f g => ¬g.items ⊆ f.items := by
  induction l generalizing kept with
  | nil => exact h
  | cons f l ih =>
    rw [keepUncovered]
    split
    · exact ih h
    · rename_i hnot
      refine ih (List.pairwise_append.mpr ⟨h, List.pairwise_singleton _ f, ?_⟩)
      intro g hg f' hf' hsub
      cases List.mem_singleton.mp hf'
      exact hnot (List.any_eq_true.mpr ⟨g, hg, decide_eq_true hsub⟩)

/-- Nothing is left out of what contains no set before it. -/
theorem keepUncovered_eq_append (h : (kept ++ l).Pairwise fun f g => ¬g.items ⊆ f.items) :
    keepUncovered kept l = kept ++ l := by
  induction l generalizing kept with
  | nil => exact (List.append_nil kept).symm
  | cons f l ih =>
    have hnot : ¬(kept.any (f.items ⊆ ·.items)) = true := by
      intro hcovered
      obtain ⟨g, hg, hsub⟩ := List.any_eq_true.mp hcovered
      exact (List.pairwise_append.mp h).2.2 g hg f List.mem_cons_self (of_decide_eq_true hsub)
    rw [List.append_cons] at h ⊢
    rw [keepUncovered, if_neg hnot]
    exact ih h

/-- Every set is contained in one that is kept, not later than the set itself. -/
theorem exists_keepUncovered_ge {R : FrequentSet → FrequentSet → Prop} (hrefl : ∀ f, R f f)
    (hkept : ∀ g ∈ kept, ∀ f ∈ l, R g f) (hl : l.Pairwise R) {f : FrequentSet} (hf : f ∈ l) :
    ∃ g ∈ keepUncovered kept l, f.items ⊆ g.items ∧ R g f := by
  induction l generalizing kept with
  | nil => cases hf
  | cons f' l ih =>
    obtain ⟨hhead, htail⟩ := List.pairwise_cons.mp hl
    have hkept' : ∀ g ∈ kept, ∀ f ∈ l, R g f :=
      fun g hg f hf => hkept g hg f (List.mem_cons_of_mem f' hf)
    rw [keepUncovered]
    split
    · rename_i hcovered
      rcases List.mem_cons.mp hf with rfl | hf
      · obtain ⟨g, hg, hsub⟩ := List.any_eq_true.mp hcovered
        exact ⟨g, mem_keepUncovered_of_mem_kept hg, of_decide_eq_true hsub,
          hkept g hg f List.mem_cons_self⟩
      · exact ih hkept' htail hf
    · rcases List.mem_cons.mp hf with rfl | hf
      · exact ⟨f, mem_keepUncovered_of_mem_kept (List.mem_append_right kept List.mem_cons_self),
          SortedSet.subset_refl f.items, hrefl f⟩
      · refine ih (fun g hg h hh => ?_) htail hf
        rcases List.mem_append.mp hg with hg | hg
        · exact hkept' g hg h hh
        · cases List.mem_singleton.mp hg
          exact hhead h hh

end KeepUncovered

end FrequentSet

/-! ## The maximal sets -/

open FrequentSet

variable {l : List FrequentSet}

theorem pairwise_mergeSort_largestFirst (l : List FrequentSet) :
    (l.mergeSort largestFirst).Pairwise fun f g => largestFirst f g = true :=
  List.pairwise_mergeSort largestFirst_trans largestFirst_total l

theorem maximalSets_sublist (l : List FrequentSet) :
    (maximalSets l).Sublist (l.mergeSort largestFirst) := by
  obtain ⟨added, heq, hsub⟩ := exists_keepUncovered_eq_append [] (l.mergeSort largestFirst)
  rw [maximalSets, heq]
  exact hsub

theorem mem_of_mem_maximalSets {f : FrequentSet} (h : f ∈ maximalSets l) : f ∈ l :=
  List.mem_mergeSort.mp ((maximalSets_sublist l).subset h)

theorem pairwise_maximalSets (l : List FrequentSet) :
    (maximalSets l).Pairwise fun f g => largestFirst f g = true ∧ ¬g.items ⊆ f.items :=
  ((pairwise_mergeSort_largestFirst l).sublist (maximalSets_sublist l)).and
    (pairwise_keepUncovered .nil)

theorem exists_maximalSets_ge {f : FrequentSet} (hf : f ∈ l) :
    ∃ g ∈ maximalSets l, f.items ⊆ g.items ∧ largestFirst g f = true :=
  exists_keepUncovered_ge (R := fun g f => largestFirst g f = true)
    (fun f => by simpa using largestFirst_total f f) (fun _ hg => absurd hg List.not_mem_nil)
    (pairwise_mergeSort_largestFirst l) (List.mem_mergeSort.mpr hf)

/-- Of two sets neither is contained in the other. -/
theorem pairwise_not_subset_maximalSets (l : List FrequentSet) :
    (maximalSets l).Pairwise fun f g => ¬f.items ⊆ g.items ∧ ¬g.items ⊆ f.items := by
  refine (pairwise_maximalSets l).imp fun {f g} ⟨hfirst, hnot⟩ => ⟨fun hsub => ?_, hnot⟩
  have hsize : g.size ≤ f.size := by
    rcases largestFirst_iff.mp hfirst with h | ⟨h, -⟩ <;> omega
  exact hnot (SortedSet.eq_of_subset_of_size_le hsub hsize ▸ SortedSet.subset_refl f.items)

/-- Where no set is contained in a different one, a set that is contained in another is the same. -/
theorem eq_of_pairwise_not_subset {f g : FrequentSet}
    (h : l.Pairwise fun f g => ¬f.items ⊆ g.items ∧ ¬g.items ⊆ f.items) (hf : f ∈ l) (hg : g ∈ l)
    (hsub : f.items ⊆ g.items) : f = g := by
  have : Std.Symm fun f g : FrequentSet => ¬f.items ⊆ g.items ∧ ¬g.items ⊆ f.items :=
    ⟨fun _ _ h => ⟨h.2, h.1⟩⟩
  by_contra hne
  exact (h.forall hf hg hne).1 hsub

theorem eq_of_mem_maximalSets {f g : FrequentSet} (hf : f ∈ maximalSets l)
    (hg : g ∈ maximalSets l) (hsub : f.items ⊆ g.items) : f = g :=
  eq_of_pairwise_not_subset (pairwise_not_subset_maximalSets l) hf hg hsub

/-- A kept set is contained in no other set of the list, and has the highest frequency of its
items. -/
theorem maximal_of_mem_maximalSets {f g : FrequentSet} (hf : f ∈ maximalSets l) (hg : g ∈ l)
    (hsub : f.items ⊆ g.items) : g.items = f.items ∧ g.frequency ≤ f.frequency := by
  obtain ⟨h, hh, hgh, hfirst⟩ := exists_maximalSets_ge hg
  obtain rfl := eq_of_mem_maximalSets hf hh (SortedSet.Subset.trans hsub hgh)
  have hitems := SortedSet.subset_antisymm hgh hsub
  refine ⟨hitems, ?_⟩
  rcases largestFirst_iff.mp hfirst with hsize | ⟨-, hfrequency⟩
  · rw [size, size, hitems] at hsize
    omega
  · omega

theorem exists_mem_maximalSets {f : FrequentSet} (hf : f ∈ l)
    (hmax : ∀ g ∈ l, f.items ⊆ g.items → g.items = f.items) :
    ∃ g ∈ maximalSets l, g.items = f.items := by
  obtain ⟨g, hg, hsub, -⟩ := exists_maximalSets_ge hf
  exact ⟨g, hg, hmax g (mem_of_mem_maximalSets hg) hsub⟩

theorem nodup_items_maximalSets (l : List FrequentSet) :
    ((maximalSets l).map (·.items)).Nodup := by
  refine List.pairwise_map.mpr ((pairwise_maximalSets l).imp fun {f g} h heq => h.2 ?_)
  rw [heq]
  exact SortedSet.subset_refl g.items

/-! ## What a list is reduced to -/

/-- Entries of a list that contain all of its sets and no set twice: none of them is contained in
another, each has the highest frequency that its set has in the list, and they stand in order. -/
structure IsReduction (l kept : List FrequentSet) : Prop where
  mem : ∀ f ∈ kept, f ∈ l
  antichain : kept.Pairwise fun f g => ¬f.items ⊆ g.items ∧ ¬g.items ⊆ f.items
  covers : ∀ f ∈ l, ∃ g ∈ kept, f.items ⊆ g.items
  highest : ∀ f ∈ kept, ∀ g ∈ l, g.items = f.items → g.frequency ≤ f.frequency
  ordered : kept.Pairwise Precedes

theorem isReduction_maximalSets (l : List FrequentSet) : IsReduction l (maximalSets l) where
  mem _ hf := mem_of_mem_maximalSets hf
  antichain := pairwise_not_subset_maximalSets l
  covers f hf := by
    obtain ⟨g, hg, hsub, -⟩ := exists_maximalSets_ge hf
    exact ⟨g, hg, hsub⟩
  highest f hf g hg hitems :=
    (maximal_of_mem_maximalSets hf hg (hitems ▸ SortedSet.subset_refl f.items)).2
  ordered := (pairwise_maximalSets l).imp fun {f g} ⟨hfirst, hnot⟩ =>
    precedes_of_largestFirst hfirst fun heq => hnot (heq ▸ SortedSet.subset_refl f.items)

namespace IsReduction

variable {l' kept kept' : List FrequentSet}

theorem of_perm (h : IsReduction l kept) (hperm : l.Perm l') : IsReduction l' kept where
  mem f hf := hperm.mem_iff.mp (h.mem f hf)
  antichain := h.antichain
  covers f hf := h.covers f (hperm.mem_iff.mpr hf)
  highest f hf g hg := h.highest f hf g (hperm.mem_iff.mpr hg)
  ordered := h.ordered

/-- A set that one reduction keeps is kept by any other with the same frequency. -/
theorem exists_counted_eq (h : IsReduction l kept) (h' : IsReduction l kept') {f : FrequentSet}
    (hf : f ∈ kept) : ∃ g ∈ kept', g.counted = f.counted := by
  obtain ⟨g, hg, hfg⟩ := h'.covers f (h.mem f hf)
  obtain ⟨f', hf', hgf'⟩ := h.covers g (h'.mem g hg)
  -- The set that contains `f` in the other reduction lies between `f` and `f'`, which are one.
  obtain rfl := eq_of_pairwise_not_subset h.antichain hf hf' (SortedSet.Subset.trans hfg hgf')
  have hitems : g.items = f.items := SortedSet.subset_antisymm hgf' hfg
  have hle := h.highest f hf g (h'.mem g hg) hitems
  have hge := h'.highest g hg f (h.mem f hf) hitems.symm
  exact ⟨g, hg, FrequentSet.ext hitems (Nat.le_antisymm hle hge) rfl rfl⟩

theorem counted_subset (h : IsReduction l kept) (h' : IsReduction l kept') :
    kept.map counted ⊆ kept'.map counted := by
  intro a ha
  obtain ⟨f, hf, rfl⟩ := List.mem_map.mp ha
  obtain ⟨g, hg, heq⟩ := h.exists_counted_eq h' hf
  exact List.mem_map.mpr ⟨g, hg, heq⟩

theorem ordered_counted (h : IsReduction l kept) : (kept.map counted).Pairwise Precedes :=
  List.pairwise_map.mpr h.ordered

theorem nodup_counted (h : IsReduction l kept) : (kept.map counted).Nodup :=
  h.ordered_counted.imp fun hfg heq => (heq ▸ hfg).asymm (heq ▸ hfg)

/-- The item sets and frequencies of a reduction are determined by the list. -/
theorem map_counted_eq (h : IsReduction l kept) (h' : IsReduction l kept') :
    kept.map counted = kept'.map counted := by
  have hperm := (List.perm_ext_iff_of_nodup h.nodup_counted h'.nodup_counted).mpr
    fun a => ⟨(h.counted_subset h' ·), (h'.counted_subset h ·)⟩
  exact hperm.eq_of_pairwise (fun _ _ _ _ hfg hgf => absurd hgf hfg.asymm) h.ordered_counted
    h'.ordered_counted

/-- A reduction is reduced. -/
theorem maximalSets_eq (h : IsReduction l kept) : maximalSets kept = kept := by
  have hsorted : kept.mergeSort largestFirst = kept :=
    List.mergeSort_of_pairwise (h.ordered.imp Precedes.largestFirst)
  rw [maximalSets, hsorted]
  exact keepUncovered_eq_append (h.antichain.imp And.right)

end IsReduction

/-- The maximal sets of a list are its reduction, which does not depend on the order of the list,
and to reduce them again changes nothing. -/
theorem maximalSets_reduces (l : List FrequentSet) :
    IsReduction l (maximalSets l) ∧
      (∀ l', l.Perm l' → (maximalSets l').map counted = (maximalSets l).map counted) ∧
      maximalSets (maximalSets l) = maximalSets l := by
  have h := isReduction_maximalSets l
  refine ⟨h, fun l' hperm => ?_, h.maximalSets_eq⟩
  exact (isReduction_maximalSets l').map_counted_eq (h.of_perm hperm)

/-- Sets of which one is given with two frequencies and reviewed once, one is empty, and the larger
ones stand among those they contain. -/
def comparableSets : List FrequentSet := [
  ⟨.ofList ["a", "b"], 17, .unknown, ""⟩, ⟨.ofList ["d", "e"], 11, .unknown, ""⟩,
  ⟨∅, 40, .unknown, ""⟩, ⟨.ofList ["a", "b", "c"], 12, .unknown, ""⟩,
  ⟨.ofList ["d", "e"], 15, .unknown, ""⟩, ⟨.ofList ["d", "e"], 15, .correct, "v1"⟩]

theorem maximalSets_reverse_comparableSets :
    comparableSets.Perm comparableSets.reverse ∧
      (maximalSets comparableSets.reverse).map counted = (maximalSets comparableSets).map counted :=
  have hperm := (List.reverse_perm comparableSets).symm
  ⟨hperm, (maximalSets_reduces comparableSets).2.1 _ hperm⟩

end UsageRules
