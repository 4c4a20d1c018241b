import UsageRules.Proofs.History.Sightings

/-! Histories that a version is stored into. The new version takes its place between the older and
the newer ones, whether its tag is new or not, and so do the sightings of its records
(`History.sightings_store`). -/

namespace UsageRules

namespace History

variable {h : History} {tag : String} {records : List Record} {id : RuleId}

/-- The history with these records under the tag. -/
def store (h : History) (tag : String) (records : List Record) : History :=
  ⟨h.versions.insert tag records⟩

theorem records?_store (h : History) (tag : String) (records : List Record) (other : String) :
    (h.store tag records).records? other =
      if other = tag then some records else h.records? other :=
  SortedMap.get?_insert ..

theorem sighting?_store_self :
    (h.store tag records).sighting? id tag = Sighting.in? id tag records := by
  rw [sighting?, records?_store, if_pos rfl, Option.bind_some]

theorem sighting?_store_of_ne {other : String} (hne : other ≠ tag) :
    (h.store tag records).sighting? id other = h.sighting? id other := by
  rw [sighting?, records?_store, if_neg hne, sighting?]

/-! ## Older and newer versions -/

def olderThan (h : History) (tag : String) : List String := h.tags.filter (Version.Before · tag)

def newerThan (h : History) (tag : String) : List String := h.tags.filter (Version.Before tag ·)

theorem mem_olderThan {t : String} :
    t ∈ h.olderThan tag ↔ t ∈ h.tags ∧ Version.Before t tag := by
  rw [olderThan, List.mem_filter, decide_eq_true_eq]

theorem mem_newerThan {t : String} :
    t ∈ h.newerThan tag ↔ t ∈ h.tags ∧ Version.Before tag t := by
  rw [newerThan, List.mem_filter, decide_eq_true_eq]

theorem pairwise_around (h : History) (tag : String) :
    (h.olderThan tag ++ tag :: h.newerThan tag).Pairwise Version.Before := by
  have holder : ∀ t ∈ h.olderThan tag, Version.Before t tag := fun t ht => (mem_olderThan.mp ht).2
  have hnewer : ∀ t ∈ h.newerThan tag, Version.Before tag t := fun t ht => (mem_newerThan.mp ht).2
  refine List.pairwise_append.mpr ⟨h.pairwise_tags.filter _,
    List.pairwise_cons.mpr ⟨hnewer, h.pairwise_tags.filter _⟩, fun t ht u hu => ?_⟩
  rcases List.mem_cons.mp hu with rfl | hu
  · exact holder t ht
  · exact (holder t ht).trans (hnewer u hu)

/-- Every other version is older or newer. -/
theorem mem_older_or_newer_iff {t : String} :
    t ∈ h.olderThan tag ∨ t ∈ h.newerThan tag ↔ t ∈ h.tags ∧ t ≠ tag := by
  rw [mem_olderThan, mem_newerThan, ← and_or_left]
  refine and_congr_right fun _ => ⟨?_, fun hne => ?_⟩
  · rintro (hbefore | hbefore)
    · exact hbefore.ne
    · exact hbefore.ne.symm
  · rcases Version.before_trichotomy t tag with hbefore | heq | hbefore
    · exact .inl hbefore
    · exact absurd heq hne
    · exact .inr hbefore

theorem mem_around_iff {t : String} :
    t ∈ h.olderThan tag ++ tag :: h.newerThan tag ↔ t = tag ∨ t ∈ h.tags := by
  rw [List.mem_append, List.mem_cons, or_left_comm, mem_older_or_newer_iff]
  by_cases heq : t = tag <;> simp [heq]

theorem tags_store (h : History) (tag : String) (records : List Record) :
    (h.store tag records).tags = h.olderThan tag ++ tag :: h.newerThan tag := by
  refine (eq_tags (h.pairwise_around tag) fun t => ?_).symm
  rw [mem_around_iff, mem_tags_iff, records?_store]
  by_cases heq : t = tag <;> simp [heq]

theorem tags_eq_of_mem (hmem : tag ∈ h.tags) :
    h.tags = h.olderThan tag ++ tag :: h.newerThan tag := by
  refine (eq_tags (h.pairwise_around tag) fun t => ?_).symm
  rw [mem_around_iff, ← mem_tags_iff]
  exact ⟨fun ht => ht.elim (· ▸ hmem) id, .inr⟩

theorem tags_eq_of_not_mem (hnot : tag ∉ h.tags) :
    h.tags = h.olderThan tag ++ h.newerThan tag := by
  have hsorted := (h.pairwise_around tag).sublist
    (List.Sublist.append_left (List.sublist_cons_self tag _) (h.olderThan tag))
  refine (eq_tags hsorted fun t => ?_).symm
  rw [List.mem_append, mem_older_or_newer_iff, ← mem_tags_iff]
  refine ⟨And.left, fun ht => ⟨ht, ?_⟩⟩
  rintro rfl
  exact hnot ht

/-- A version that comes after all others is stored at their end. -/
theorem tags_store_of_newest (hnewest : ∀ t ∈ h.tags, Version.Before t tag) :
    (h.store tag records).tags = h.tags ++ [tag] := by
  have holder : h.olderThan tag = h.tags :=
    List.filter_eq_self.mpr fun t ht => decide_eq_true (hnewest t ht)
  have hnewer : h.newerThan tag = [] :=
    List.filter_eq_nil_iff.mpr fun t ht => by simpa using (hnewest t ht).asymm
  rw [tags_store, holder, hnewer]

/-! ## Sightings around a version -/

def olderSightings (h : History) (tag : String) (id : RuleId) : List Sighting :=
  (h.olderThan tag).filterMap (h.sighting? id)

def newerSightings (h : History) (tag : String) (id : RuleId) : List Sighting :=
  (h.newerThan tag).filterMap (h.sighting? id)

theorem sightings_around (h : History) (tag : String) (id : RuleId) :
    h.sightings id = h.olderSightings tag id ++
      ((h.sighting? id tag).toList ++ h.newerSightings tag id) := by
  rw [sightings_eq]
  by_cases hmem : tag ∈ h.tags
  · rw [tags_eq_of_mem hmem, List.filterMap_append, List.filterMap_cons]
    cases h.sighting? id tag <;> rfl
  · rw [tags_eq_of_not_mem hmem, sighting?_eq_none_of_not_mem hmem, List.filterMap_append]
    rfl

theorem sightings_store (h : History) (tag : String) (records : List Record) (id : RuleId) :
    (h.store tag records).sightings id = h.olderSightings tag id ++
      ((Sighting.in? id tag records).toList ++ h.newerSightings tag id) := by
  have hsame : ∀ t, t ∈ h.olderThan tag ∨ t ∈ h.newerThan tag →
      (h.store tag records).sighting? id t = h.sighting? id t := fun t ht =>
    sighting?_store_of_ne (mem_older_or_newer_iff.mp ht).2
  rw [sightings_eq, tags_store, List.filterMap_append, List.filterMap_cons, sighting?_store_self,
    List.filterMap_congr fun t ht => hsame t (.inl ht),
    List.filterMap_congr fun t ht => hsame t (.inr ht)]
  cases Sighting.in? id tag records <;> rfl

/-- What is stored after all other versions is seen after them. -/
theorem sightings_store_of_newest (hnewest : ∀ t ∈ h.tags, Version.Before t tag) (id : RuleId) :
    (h.store tag records).sightings id =
      h.sightings id ++ (Sighting.in? id tag records).toList := by
  have hsame : ∀ t ∈ h.tags, (h.store tag records).sighting? id t = h.sighting? id t := fun t ht =>
    sighting?_store_of_ne (hnewest t ht).ne
  rw [sightings_eq, tags_store_of_newest hnewest, List.filterMap_append, sightings_eq,
    List.filterMap_congr hsame, List.filterMap_cons, sighting?_store_self]
  cases Sighting.in? id tag records <;> rfl

end History

end UsageRules
