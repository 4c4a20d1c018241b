import UsageRules.Proofs.History.Sightings
import UsageRules.Proofs.Traversal

/-! What lookups in a history find, said of its versions. The label of a rule is that of the newest
version whose first record of the rule has a known one (`History.labelOf_eq_iff`), and its first
version is the oldest that has a record of it (`History.firstVersionOf_eq_iff`). Annotation collects
the sightings of all rules at once, and gives each mined rule what the lookups find for it
(`History.annotate_eq_lookups`). -/

namespace UsageRules

namespace History

variable {h : History} {id : RuleId} {tag current : String} {l : Label}

/-! ## Labels -/

/-- The first record of the rule in the version has the label. -/
def Shows (h : History) (id : RuleId) (tag : String) (l : Label) : Prop :=
  ∃ records r, h.records? tag = some records ∧ records.find? (·.id = id) = some r ∧ r.label = l

/-- The label is the one that the newest version with a known label for the rule shows, and unknown
if there is no such version. -/
def IsLabelOf (h : History) (id : RuleId) (l : Label) : Prop :=
  (∃ tag, h.Shows id tag l ∧ l ≠ .unknown ∧
      ∀ tag' l', h.Shows id tag' l' → l' ≠ .unknown → ¬Version.Before tag tag') ∨
    (l = .unknown ∧ ∀ tag l', h.Shows id tag l' → l' = .unknown)

theorem mem_sightings_iff {s : Sighting} :
    s ∈ h.sightings id ↔ h.Shows id s.version s.label := by
  rw [sightings_eq, List.mem_filterMap]
  constructor
  · rintro ⟨tag, -, hs⟩
    obtain rfl := version_of_mem_sighting? hs
    obtain ⟨records, hrecords, hin⟩ := Option.bind_eq_some_iff.mp hs
    obtain ⟨r, hr, heq⟩ := Option.map_eq_some_iff.mp hin
    exact ⟨records, r, hrecords, hr, congrArg Sighting.label heq⟩
  · rintro ⟨records, r, hrecords, hr, hlabel⟩
    refine ⟨s.version, mem_tags_iff.mpr ⟨records, hrecords⟩, ?_⟩
    rw [sighting?, hrecords, Option.bind_some, Sighting.in?, hr, Option.map_some, hlabel]

theorem pairwise_sightings (h : History) (id : RuleId) :
    (h.sightings id).Pairwise fun s t => Version.Before s.version t.version := by
  rw [sightings_eq]
  refine h.pairwise_tags.filterMap _ fun tag tag' hbefore s hs s' hs' => ?_
  rwa [version_of_mem_sighting? hs, version_of_mem_sighting? hs']

theorem labelOf_eq (h : History) (id : RuleId) :
    h.labelOf id =
      (((h.sightings id).reverse.find? (!·.label.isUnknown)).map Sighting.label).getD .unknown := by
  rw [labelOf, Sighting.label?, List.find?_map]
  rfl

theorem labelOf_eq_iff : h.labelOf id = l ↔ h.IsLabelOf id l := by
  have hnewest : (h.sightings id).reverse.Pairwise fun s t => Version.Before t.version s.version :=
    List.pairwise_reverse.mpr (h.pairwise_sightings id)
  rw [labelOf_eq, getD_map_find?_eq_iff (fun _ _ => Version.Before.asymm) hnewest]
  simp only [List.mem_reverse, mem_sightings_iff, Label.isUnknown, Bool.not_eq_true',
    decide_eq_false_iff_not, not_not]
  refine or_congr ⟨?_, ?_⟩ (and_congr_right fun _ => ⟨?_, ?_⟩)
  · rintro ⟨s, hshows, hknown, rfl, hnewer⟩
    exact ⟨s.version, hshows, hknown, fun tag l => hnewer ⟨tag, l⟩⟩
  · rintro ⟨tag, hshows, hknown, hnewer⟩
    exact ⟨⟨tag, l⟩, hshows, hknown, rfl, fun s => hnewer s.version s.label⟩
  · exact fun hnone tag l => hnone ⟨tag, l⟩
  · exact fun hnone s => hnone s.version s.label

/-! ## First versions -/

/-- The version has a record of the rule. -/
def Has (h : History) (id : RuleId) (tag : String) : Prop :=
  ∃ records, h.records? tag = some records ∧ id ∈ Record.ids records

/-- The version is the oldest that has a record of the rule, and the current one if there is none.
-/
def IsFirstVersionOf (h : History) (id : RuleId) (current tag : String) : Prop :=
  (h.Has id tag ∧ ∀ tag', h.Has id tag' → ¬Version.Before tag' tag) ∨
    (tag = current ∧ ¬h.Knows id)

/-- A rule is first seen in the oldest version that has its id. -/
theorem map_version_head?_sightings (h : History) (id : RuleId) :
    (h.sightings id).head?.map Sighting.version =
      (h.ordered.find? (id ∈ Record.ids ·.2)).map Prod.fst := by
  suffices hfirst : ∀ l : List (String × List Record),
      ((l.filterMap fun e => Sighting.in? id e.1 e.2).head?).map Sighting.version =
        (l.find? (id ∈ Record.ids ·.2)).map Prod.fst from hfirst h.ordered
  intro l
  induction l with
  | nil => rfl
  | cons e l ih =>
    by_cases hid : id ∈ Record.ids e.2
    · have hsome : (Sighting.in? id e.1 e.2).isSome = true := Sighting.isSome_in?.mpr hid
      obtain ⟨s, hs⟩ := Option.isSome_iff_exists.mp hsome
      rw [List.filterMap_cons, hs, List.find?_cons_of_pos (by simpa using hid)]
      exact congrArg some (Sighting.version_of_mem_in? hs)
    · have hnone : Sighting.in? id e.1 e.2 = none := by
        rw [← Option.not_isSome_iff_eq_none, Sighting.isSome_in?]
        exact hid
      rw [List.filterMap_cons, hnone, List.find?_cons_of_neg (by simpa using hid)]
      exact ih

theorem firstVersionOf_eq (h : History) (id : RuleId) (current : String) :
    h.firstVersionOf id current =
      ((h.ordered.find? (id ∈ Record.ids ·.2)).map Prod.fst).getD current := by
  rw [firstVersionOf, Sighting.firstVersion, map_version_head?_sightings]

theorem pairwise_ordered (h : History) :
    h.ordered.Pairwise fun e e' => Version.Before e.1 e'.1 :=
  List.pairwise_map.mp (h.map_fst_ordered.symm ▸ h.pairwise_tags)

theorem firstVersionOf_eq_iff :
    h.firstVersionOf id current = tag ↔ h.IsFirstVersionOf id current tag := by
  rw [firstVersionOf_eq,
    getD_map_find?_eq_iff (fun _ _ => Version.Before.asymm) h.pairwise_ordered]
  simp only [mem_ordered_iff, decide_eq_true_eq, Prod.forall, Prod.exists]
  refine or_congr ⟨?_, ?_⟩ (and_congr_right fun _ => ⟨?_, ?_⟩)
  · rintro ⟨_, records, hrecords, hid, rfl, holdest⟩
    exact ⟨⟨records, hrecords, hid⟩, fun tag' ⟨records', hrecords', hid'⟩ =>
      holdest tag' records' hrecords' hid'⟩
  · rintro ⟨⟨records, hrecords, hid⟩, holdest⟩
    exact ⟨tag, records, hrecords, hid, rfl, fun tag' records' hrecords' hid' =>
      holdest tag' ⟨records', hrecords', hid'⟩⟩
  · exact fun hnone ⟨tag', records, hrecords, hid⟩ => hnone tag' records hrecords hid
  · exact fun hnone tag' records hrecords hid => hnone ⟨tag', records, hrecords, hid⟩

/-! ## Mined rules -/

/-- The rule with the label and the first version that single lookups find for it. -/
structure IsAnnotated (h : History) (current : String) (r annotated : Rule) : Prop where
  label_eq : annotated.label = h.labelOf r.id
  version_eq : annotated.version = h.firstVersionOf r.id current
  antecedent_eq : annotated.antecedent = r.antecedent
  consequent_eq : annotated.consequent = r.consequent
  confidence_eq : annotated.confidence = r.confidence

/-- Annotation gives each mined rule, in their order, what single lookups find for its id, and
leaves the rest of it as it is. A lookup finds the label in the newest version whose first record of
the rule has a known one, and the oldest version that has a record of the rule. -/
theorem annotate_eq_lookups (h : History) (rules : List Rule) (current : String) :
    List.Forall₂ (h.IsAnnotated current) rules (h.annotate rules current) ∧
      ∀ id, (∀ l, h.labelOf id = l ↔ h.IsLabelOf id l) ∧
        ∀ tag, h.firstVersionOf id current = tag ↔ h.IsFirstVersionOf id current tag := by
  refine ⟨?_, fun id => ⟨fun l => labelOf_eq_iff, fun tag => firstVersionOf_eq_iff⟩⟩
  rw [annotate_eq, List.forall₂_map_right_iff]
  exact List.forall₂_same.mpr fun r _ => ⟨rfl, rfl, rfl, rfl, rfl⟩

end History

end UsageRules
