import UsageRules.History
import UsageRules.Proofs.Record
import UsageRules.Proofs.SortedMap
import UsageRules.Proofs.Version

/-! Where the rules of a history are seen. Versions are listed from the oldest to the newest, a rule
is seen in those that have a record with its id, and a mined rule is given what its sightings say
(`History.annotate_eq`). -/

namespace UsageRules

/-- The sighting of a rule in a version with the records: its first record there counts. -/
def Sighting.in? (id : RuleId) (tag : String) (records : List Record) : Option Sighting :=
  (records.find? (·.id = id)).map fun r => ⟨tag, r.label⟩

theorem Sighting.version_of_mem_in? {id : RuleId} {tag : String} {records : List Record}
    {s : Sighting} (hs : s ∈ Sighting.in? id tag records) : s.version = tag := by
  obtain ⟨r, -, rfl⟩ := Option.map_eq_some_iff.mp hs
  rfl

theorem Sighting.isSome_in? {id : RuleId} {tag : String} {records : List Record} :
    (Sighting.in? id tag records).isSome = true ↔ id ∈ Record.ids records := by
  rw [Sighting.in?, Option.isSome_map, Record.mem_ids_iff_isSome_find?]

namespace History

variable {h : History} {tag : String} {id : RuleId}

/-! ## Versions -/

theorem mem_tags_iff_mem_keys : tag ∈ h.tags ↔ tag ∈ h.versions.keys := List.mem_mergeSort

theorem mem_tags_iff : tag ∈ h.tags ↔ ∃ records, h.records? tag = some records :=
  mem_tags_iff_mem_keys.trans SortedMap.mem_keys_iff

theorem pairwise_tags (h : History) : h.tags.Pairwise Version.Before := by
  have hsorted : h.tags.Pairwise (Version.notAfter · · = true) :=
    @List.pairwise_mergeSort _ Version.notAfter (fun _ _ _ => Version.notAfter_trans)
      Version.notAfter_total h.versions.keys.toList
  have hdistinct : h.tags.Nodup :=
    (List.mergeSort_perm ..).nodup_iff.mpr h.versions.keys.nodup_toList
  refine hsorted.imp₂ (fun a b hnotAfter hne => ?_) hdistinct
  exact (Version.notAfter_iff.mp hnotAfter).resolve_left hne

/-- The versions of a history are listed in one way only. -/
theorem eq_tags {l : List String} (hl : l.Pairwise Version.Before)
    (hmem : ∀ tag, tag ∈ l ↔ ∃ records, h.records? tag = some records) : l = h.tags :=
  Version.eq_of_pairwise_before hl h.pairwise_tags fun tag => (hmem tag).trans mem_tags_iff.symm

theorem mem_ordered_iff {e : String × List Record} :
    e ∈ h.ordered ↔ h.records? e.1 = some e.2 := by
  obtain ⟨tag, records⟩ := e
  simp only [ordered, List.mem_map, mem_tags_iff, Prod.mk.injEq]
  constructor
  · rintro ⟨_, ⟨found, hfound⟩, rfl, rfl⟩
    rw [hfound, Option.getD_some]
  · intro hrecords
    exact ⟨tag, ⟨records, hrecords⟩, rfl, by rw [hrecords, Option.getD_some]⟩

theorem map_fst_ordered (h : History) : h.ordered.map Prod.fst = h.tags := by
  simp [ordered, Function.comp_def]

/-! ## Sightings -/

/-- The sighting of a rule in a version of the history. -/
def sighting? (h : History) (id : RuleId) (tag : String) : Option Sighting :=
  (h.records? tag).bind (Sighting.in? id tag)

theorem sightings_eq (h : History) (id : RuleId) :
    h.sightings id = h.tags.filterMap (h.sighting? id) := by
  rw [sightings, ordered, List.filterMap_map]
  congr 1
  funext tag
  cases hrecords : h.records? tag <;> simp [sighting?, Sighting.in?, hrecords]

theorem version_of_mem_sighting? {s : Sighting} (hs : s ∈ h.sighting? id tag) :
    s.version = tag := by
  obtain ⟨records, -, hin⟩ := Option.bind_eq_some_iff.mp hs
  exact Sighting.version_of_mem_in? hin

theorem sighting?_eq_none_of_not_mem (hnot : tag ∉ h.tags) : h.sighting? id tag = none := by
  cases hrecords : h.records? tag with
  | none => rw [sighting?, hrecords, Option.bind_none]
  | some found => exact absurd (mem_tags_iff.mpr ⟨found, hrecords⟩) hnot

/-- Some version has a record of the rule. -/
def Knows (h : History) (id : RuleId) : Prop :=
  ∃ tag records, h.records? tag = some records ∧ id ∈ Record.ids records

theorem knows_iff_sightings_ne_nil : h.Knows id ↔ h.sightings id ≠ [] := by
  rw [sightings_eq]
  constructor
  · rintro ⟨tag, records, hrecords, hid⟩ hnil
    have hnone := List.filterMap_eq_nil_iff.mp hnil tag (mem_tags_iff.mpr ⟨records, hrecords⟩)
    rw [sighting?, hrecords, Option.bind_some] at hnone
    have hsome : (Sighting.in? id tag records).isSome = true := Sighting.isSome_in?.mpr hid
    rw [hnone] at hsome
    cases hsome
  · intro hne
    obtain ⟨s, hs⟩ := List.exists_mem_of_ne_nil _ hne
    obtain ⟨tag, -, hsighting⟩ := List.mem_filterMap.mp hs
    obtain ⟨records, hrecords, hin⟩ := Option.bind_eq_some_iff.mp hsighting
    exact ⟨tag, records, hrecords, Sighting.isSome_in?.mp (Option.isSome_of_mem hin)⟩

/-! ## The index of sightings -/

/-- One version adds its sighting of a rule to those that are collected. -/
theorem getD_get?_foldl_update (tag : String) (records : List Record)
    (hdistinct : (records.map (·.id)).Nodup) (m : SortedMap RuleId (List Sighting)) :
    ((records.foldl (fun m r => m.update r.id fun seen => seen.getD [] ++ [⟨tag, r.label⟩]) m).get?
        id).getD [] = (m.get? id).getD [] ++ (Sighting.in? id tag records).toList := by
  induction records generalizing m with
  | nil => simp [Sighting.in?]
  | cons r records ih =>
    obtain ⟨hr, htail⟩ := List.nodup_cons.mp hdistinct
    rw [List.foldl_cons, ih htail, SortedMap.get?_update]
    by_cases hid : id = r.id
    · subst hid
      have hnone : records.find? (·.id = r.id) = none := by
        refine List.find?_eq_none.mpr fun s hs heq => hr ?_
        exact List.mem_map.mpr ⟨s, hs, of_decide_eq_true heq⟩
      simp [Sighting.in?, hnone]
    · simp [Sighting.in?, hid, Ne.symm hid]

theorem getD_get?_sightingIndex (h : History) (id : RuleId) :
    (h.sightingIndex.get? id).getD [] = h.sightings id := by
  suffices hfold : ∀ (l : List (String × List Record)) (m : SortedMap RuleId (List Sighting)),
      ((l.foldl (fun m e => (Record.distinctIds e.2).foldl
        (fun m r => m.update r.id fun seen => seen.getD [] ++ [⟨e.1, r.label⟩]) m) m).get? id).getD
          [] = (m.get? id).getD [] ++ l.filterMap fun e => Sighting.in? id e.1 e.2 by
    exact hfold h.ordered ∅
  intro l
  induction l with
  | nil => simp
  | cons e l ih =>
    intro m
    have hin : Sighting.in? id e.1 (Record.distinctIds e.2) = Sighting.in? id e.1 e.2 := by
      rw [Sighting.in?, Record.find?_distinctIds, Sighting.in?]
    rw [List.foldl_cons, ih, getD_get?_foldl_update _ _ (Record.nodup_map_id_distinctIds e.2), hin,
      List.append_assoc, List.filterMap_cons]
    cases Sighting.in? id e.1 e.2 <;> simp

/-- Each mined rule is given its newest known label and the oldest version it is seen in. -/
theorem annotate_eq (h : History) (rules : List Rule) (current : String) :
    h.annotate rules current = rules.map fun r =>
      { r with label := h.labelOf r.id, version := h.firstVersionOf r.id current } := by
  simp only [annotate, getD_get?_sightingIndex, labelOf, firstVersionOf]

end History

end UsageRules
