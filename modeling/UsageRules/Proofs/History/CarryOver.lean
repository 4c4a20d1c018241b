import UsageRules.Fact
import UsageRules.Proofs.History.Storing

/-! What a history says of a rule, over the runs of the miner. A run gives its rules the labels and
first versions of the history and is stored into it. A copied label is the newest known one wherever
the version stands, so it changes nothing (`Sighting.label?_copied`); and a version that no other
comes after leaves first versions as they are. So over runs with new tags in ascending order labels
and first versions stay the same (`History.carried_over`). -/

namespace UsageRules

/-! ## Newest known labels -/

namespace Sighting

/-- The newest label that is known, if there is one. -/
def lastKnown? (sightings : List Sighting) : Option Label :=
  (sightings.reverse.map label).find? (!·.isUnknown)

theorem label?_eq (sightings : List Sighting) :
    label? sightings = (lastKnown? sightings).getD .unknown := rfl

theorem lastKnown?_append (s t : List Sighting) :
    lastKnown? (s ++ t) = (lastKnown? t).or (lastKnown? s) := by
  rw [lastKnown?, List.reverse_append, List.map_append, List.find?_append]
  rfl

/-- A label that is copied from a choice of known labels, stands for the choice. -/
theorem lastKnown?_copied (tag : String) (sightings : List Sighting) :
    lastKnown? [⟨tag, label? sightings⟩] = lastKnown? sightings := by
  rw [label?_eq]
  cases hknown : lastKnown? sightings with
  | none => rfl
  | some l =>
    have hl : l.isUnknown = false := by simpa using List.find?_some hknown
    simp [lastKnown?, hl]

/-- The newest known label may be copied to any version, whatever stood there. -/
theorem label?_copied (tag : String) (older found newer : List Sighting) :
    label? (older ++ ([⟨tag, label? (older ++ (found ++ newer))⟩] ++ newer)) =
      label? (older ++ (found ++ newer)) := by
  rw [label?_eq, lastKnown?_append, lastKnown?_append, lastKnown?_copied, label?_eq,
    lastKnown?_append, lastKnown?_append]
  cases lastKnown? newer with
  | some l => rfl
  | none =>
    cases lastKnown? found with
    | some l => rfl
    | none => cases lastKnown? older <;> rfl

/-! ## Oldest versions -/

theorem firstVersion_append_of_ne_nil {s : List Sighting} (hne : s ≠ []) (t : List Sighting)
    (current : String) : firstVersion (s ++ t) current = firstVersion s current := by
  rw [firstVersion, List.head?_append_of_ne_nil s hne, firstVersion]

/-- A sighting in the current version says no more than that there is none before it. -/
theorem firstVersion_append_of_version (older : List Sighting) {found : Option Sighting}
    {current : String} (hversion : ∀ s ∈ found, s.version = current) :
    firstVersion (older ++ found.toList) current = firstVersion older current := by
  cases older with
  | cons s older => rfl
  | nil =>
    cases found with
    | none => rfl
    | some s => exact hversion s rfl

end Sighting

namespace History

variable {h : History} {tag : String} {rules : List Rule} {id : RuleId}

/-! ## Runs -/

/-- A run of the miner: the tag of its version, and the rules it finds. -/
structure MiningRun where
  tag : String
  rules : List Rule

/-- The history after a run: the rules are stored with what the history says of them. -/
def afterRun (h : History) (run : MiningRun) : History :=
  h.store run.tag ((h.annotate run.rules run.tag).map Record.ofRule)

def afterRuns (h : History) (runs : List MiningRun) : History := runs.foldl afterRun h

/-- The records of a run show its own rules with the labels of the history, and no other rules. -/
theorem in?_annotate (h : History) (rules : List Rule) (tag : String) (id : RuleId) :
    Sighting.in? id tag ((h.annotate rules tag).map Record.ofRule) =
      if id ∈ rules.map Rule.id then some ⟨tag, h.labelOf id⟩ else none := by
  rw [annotate_eq, List.map_map, Sighting.in?, List.find?_map, Option.map_map]
  change (rules.find? (·.id = id)).map (fun r => Sighting.mk tag (h.labelOf r.id)) = _
  cases hfind : rules.find? (·.id = id) with
  | some r =>
    have hid : r.id = id := by simpa using List.find?_some hfind
    rw [if_pos (hid ▸ List.mem_map_of_mem (List.mem_of_find?_eq_some hfind)), Option.map_some, hid]
  | none =>
    have hnot : id ∉ rules.map Rule.id := by simpa using hfind
    rw [if_neg hnot, Option.map_none]

/-! ## Labels -/

theorem labelOf_afterRun_of_mem (h : History) (tag : String) (hmem : id ∈ rules.map Rule.id) :
    (h.afterRun ⟨tag, rules⟩).labelOf id = h.labelOf id := by
  rw [labelOf, afterRun, sightings_store, in?_annotate, if_pos hmem, labelOf,
    sightings_around h tag id]
  exact Sighting.label?_copied ..

theorem labelOf_afterRun_of_new (rules : List Rule) (hnew : tag ∉ h.tags) (id : RuleId) :
    (h.afterRun ⟨tag, rules⟩).labelOf id = h.labelOf id := by
  by_cases hmem : id ∈ rules.map Rule.id
  · exact labelOf_afterRun_of_mem h tag hmem
  rw [labelOf, afterRun, sightings_store, in?_annotate, if_neg hmem, labelOf,
    sightings_around h tag id, sighting?_eq_none_of_not_mem hnew]

/-! ## First versions -/

theorem firstVersionOf_afterRun (rules : List Rule)
    (hnewest : ∀ t ∈ h.tags, ¬Version.Before tag t) (id : RuleId) :
    (h.afterRun ⟨tag, rules⟩).firstVersionOf id tag = h.firstVersionOf id tag := by
  have hnewer : h.newerSightings tag id = [] := by
    have hnone : h.newerThan tag = [] :=
      List.filter_eq_nil_iff.mpr fun t ht => by simpa using hnewest t ht
    rw [newerSightings, hnone, List.filterMap_nil]
  rw [firstVersionOf, afterRun, sightings_store, firstVersionOf, sightings_around h tag id, hnewer,
    List.append_nil, List.append_nil,
    Sighting.firstVersion_append_of_version _ fun s hs => Sighting.version_of_mem_in? hs,
    Sighting.firstVersion_append_of_version _ fun s hs => version_of_mem_sighting? hs]

/-! ## Sequences of runs -/

/-- The second history says the same of rules as the first, and of what the first does not know only
first versions may differ. -/
structure Keeps (h h' : History) : Prop where
  labelOf_eq : ∀ id, h'.labelOf id = h.labelOf id
  knows : ∀ id, h.Knows id → h'.Knows id
  firstVersionOf_eq : ∀ id, h.Knows id → ∀ current,
    h'.firstVersionOf id current = h.firstVersionOf id current

theorem Keeps.refl (h : History) : h.Keeps h := ⟨fun _ => rfl, fun _ => id, fun _ _ _ => rfl⟩

theorem Keeps.trans {h' h'' : History} (hkeeps : h.Keeps h') (hkeeps' : h'.Keeps h'') :
    h.Keeps h'' where
  labelOf_eq id := (hkeeps'.labelOf_eq id).trans (hkeeps.labelOf_eq id)
  knows id hknows := hkeeps'.knows id (hkeeps.knows id hknows)
  firstVersionOf_eq id hknows current :=
    (hkeeps'.firstVersionOf_eq id (hkeeps.knows id hknows) current).trans
      (hkeeps.firstVersionOf_eq id hknows current)

theorem keeps_afterRun {run : MiningRun} (hnewest : ∀ t ∈ h.tags, Version.Before t run.tag) :
    h.Keeps (h.afterRun run) := by
  have hnew : run.tag ∉ h.tags := fun hmem => Version.Before.irrefl _ (hnewest _ hmem)
  have hsightings : ∀ id, ∃ found, (h.afterRun run).sightings id = h.sightings id ++ found :=
    fun id => ⟨_, sightings_store_of_newest hnewest id⟩
  refine ⟨labelOf_afterRun_of_new run.rules hnew, fun id hknows => ?_, fun id hknows current => ?_⟩
  · obtain ⟨found, hfound⟩ := hsightings id
    rw [knows_iff_sightings_ne_nil] at hknows ⊢
    rw [hfound]
    exact List.append_ne_nil_of_left_ne_nil hknows found
  · obtain ⟨found, hfound⟩ := hsightings id
    rw [firstVersionOf, hfound,
      Sighting.firstVersion_append_of_ne_nil (knows_iff_sightings_ne_nil.mp hknows), firstVersionOf]

theorem tags_afterRun {run : MiningRun} (hnewest : ∀ t ∈ h.tags, Version.Before t run.tag) :
    (h.afterRun run).tags = h.tags ++ [run.tag] := tags_store_of_newest hnewest

/-- Each run of the sequence has a tag that comes after all tags before it. -/
def InOrder (h : History) (runs : List MiningRun) : Prop :=
  (h.tags ++ runs.map MiningRun.tag).Pairwise Version.Before

instance (runs : List MiningRun) : Decidable (h.InOrder runs) :=
  inferInstanceAs (Decidable (List.Pairwise _ _))

theorem InOrder.newest {run : MiningRun} {runs : List MiningRun}
    (hordered : h.InOrder (run :: runs)) :
    ∀ t ∈ h.tags, Version.Before t run.tag := fun t ht =>
  (List.pairwise_append.mp hordered).2.2 t ht run.tag List.mem_cons_self

theorem InOrder.tail {run : MiningRun} {runs : List MiningRun}
    (hordered : h.InOrder (run :: runs)) :
    (h.afterRun run).InOrder runs := by
  rw [InOrder, tags_afterRun hordered.newest, List.append_assoc]
  exact hordered

theorem InOrder.afterRuns {earlier later : List MiningRun}
    (hordered : h.InOrder (earlier ++ later)) : (h.afterRuns earlier).InOrder later := by
  induction earlier generalizing h with
  | nil => exact hordered
  | cons run earlier ih => exact ih hordered.tail

theorem keeps_afterRuns {runs : List MiningRun} (hordered : h.InOrder runs) :
    h.Keeps (h.afterRuns runs) := by
  induction runs generalizing h with
  | nil => exact .refl h
  | cons run runs ih => exact (keeps_afterRun hordered.newest).trans (ih hordered.tail)

/-- A run changes no label of its rules and, if its tag is new, of no rule at all, so the rules get
the same labels again; and if no version comes after it, first versions stay. Hence over runs with
new tags in ascending order no label changes, and no first version of a rule that is known. -/
theorem carried_over (h : History) :
    (∀ tag rules,
      (∀ r ∈ rules, (h.afterRun ⟨tag, rules⟩).labelOf r.id = h.labelOf r.id) ∧
      (tag ∉ h.tags → ∀ id, (h.afterRun ⟨tag, rules⟩).labelOf id = h.labelOf id) ∧
      (∀ current, ((h.afterRun ⟨tag, rules⟩).annotate rules current).map (·.label) =
        (h.annotate rules current).map (·.label)) ∧
      ((∀ t ∈ h.tags, ¬Version.Before tag t) → ∀ id,
        (h.afterRun ⟨tag, rules⟩).firstVersionOf id tag = h.firstVersionOf id tag)) ∧
    ∀ earlier later, h.InOrder (earlier ++ later) → ∀ id,
      (h.afterRuns (earlier ++ later)).labelOf id = (h.afterRuns earlier).labelOf id ∧
      ((h.afterRuns earlier).Knows id → ∀ current,
        (h.afterRuns (earlier ++ later)).firstVersionOf id current =
          (h.afterRuns earlier).firstVersionOf id current) := by
  constructor
  · intro tag rules
    have hlabels : ∀ r ∈ rules, (h.afterRun ⟨tag, rules⟩).labelOf r.id = h.labelOf r.id :=
      fun r hr => labelOf_afterRun_of_mem h tag (List.mem_map_of_mem hr)
    refine ⟨hlabels, labelOf_afterRun_of_new rules, fun current => ?_,
      firstVersionOf_afterRun rules⟩
    rw [annotate_eq, annotate_eq, List.map_map, List.map_map]
    exact List.map_congr_left hlabels
  · intro earlier later hordered id
    have hkeeps := keeps_afterRuns hordered.afterRuns
    rw [afterRuns, List.foldl_append]
    exact ⟨hkeeps.labelOf_eq id, hkeeps.firstVersionOf_eq id⟩

/-- Who injects a value names its source. -/
def injectedRule : Rule where
  antecedent := .singleton (Fact.text "Field" "annotatedWith" "Annotation_Inject")
  consequent := Fact.text "Field" "annotatedWith" "Annotation_ConfigProperty"
  confidence := 0.5
  antecedent_nonempty := rfl
  consequent_fresh := by decide +kernel

/-- The rule is reviewed in a version that is not the newest. -/
def reviewedOnce : History := ⟨.ofList [
  ("v0.0.9", [{ Record.ofRule injectedRule with label := .correct }]),
  ("v0.0.10", [Record.ofRule injectedRule])]⟩

theorem tags_reviewedOnce : reviewedOnce.tags = ["v0.0.9", "v0.0.10"] := by
  have hkeys : reviewedOnce.versions.keys = .ofList ["v0.0.9", "v0.0.10"] := by decide +kernel
  refine Version.eq_of_pairwise_before reviewedOnce.pairwise_tags (by decide +kernel) fun tag => ?_
  rw [mem_tags_iff_mem_keys, hkeys, SortedSet.mem_ofList]

/-- A run under the tag of the review, then runs under new tags. -/
theorem reviewedOnce_carried_over :
    (reviewedOnce.afterRun ⟨"v0.0.9", [injectedRule]⟩).labelOf injectedRule.id =
      reviewedOnce.labelOf injectedRule.id ∧
    "v0.0.11" ∉ reviewedOnce.tags ∧
    (reviewedOnce.afterRun ⟨"v0.0.11", []⟩).labelOf injectedRule.id =
      reviewedOnce.labelOf injectedRule.id ∧
    (∀ t ∈ reviewedOnce.tags, ¬Version.Before "v0.0.10" t) ∧
    (reviewedOnce.afterRun ⟨"v0.0.10", []⟩).firstVersionOf injectedRule.id "v0.0.10" =
      reviewedOnce.firstVersionOf injectedRule.id "v0.0.10" ∧
    reviewedOnce.InOrder ([⟨"v0.0.11", [injectedRule]⟩] ++ [⟨"v0.1.0", []⟩]) ∧
    (reviewedOnce.afterRuns [⟨"v0.0.11", [injectedRule]⟩]).Knows injectedRule.id ∧
    (reviewedOnce.afterRuns [⟨"v0.0.11", [injectedRule]⟩, ⟨"v0.1.0", []⟩]).firstVersionOf
        injectedRule.id "v0.1.0" =
      (reviewedOnce.afterRuns [⟨"v0.0.11", [injectedRule]⟩]).firstVersionOf
        injectedRule.id "v0.1.0" := by
  have hnew : "v0.0.11" ∉ reviewedOnce.tags := by
    rw [tags_reviewedOnce]
    decide
  have hnewest : ∀ t ∈ reviewedOnce.tags, ¬Version.Before "v0.0.10" t := by
    rw [tags_reviewedOnce]
    decide +kernel
  have hordered : reviewedOnce.InOrder
      ([⟨"v0.0.11", [injectedRule]⟩] ++ [⟨"v0.1.0", []⟩]) := by
    rw [InOrder, tags_reviewedOnce]
    decide +kernel
  have hknows : (reviewedOnce.afterRuns [⟨"v0.0.11", [injectedRule]⟩]).Knows injectedRule.id :=
    ⟨"v0.0.11", _, by rfl, by decide +kernel⟩
  obtain ⟨hrun, hruns⟩ := carried_over reviewedOnce
  exact ⟨(hrun "v0.0.9" [injectedRule]).1 _ List.mem_cons_self,
    hnew, (hrun "v0.0.11" []).2.1 hnew _, hnewest, (hrun "v0.0.10" []).2.2.2 hnewest _,
    hordered, hknows, (hruns _ _ hordered _).2 hknows _⟩

end History

end UsageRules
