import UsageRules.Proofs.History.Lookup
import UsageRules.Proofs.Stability.Accounts

/-! The labels that misses are counted under. A delta counts each miss under the label of its first
record in the earlier version (`Delta.countsMisses_compute`). The delta against all versions
together takes the newest version that has the rule, but its last record there
(`StabilityReport.find?_priorUnion`). So the two agree on a single version exactly if as many misses
have each label by their last records as by their first (`StabilityReport.labelsMisses_compute`). -/

namespace UsageRules

namespace Record

variable {records : List Record} {id : RuleId}

/-- The label of the first record with the id. -/
def firstLabel (records : List Record) (id : RuleId) : Label :=
  ((records.find? (·.id = id)).map (·.label)).getD .unknown

/-- The label of the last record with the id. -/
def lastLabel (records : List Record) (id : RuleId) : Label := firstLabel records.reverse id

/-- Records of one id have one label. -/
def AgreeOnLabels (records : List Record) : Prop :=
  ∀ r ∈ records, ∀ s ∈ records, r.id = s.id → r.label = s.label

theorem find?_eq_some_of_mem_distinctIds {r : Record} (hr : r ∈ distinctIds records) :
    records.find? (·.id = r.id) = some r := by
  rw [← find?_distinctIds]
  cases hfind : (distinctIds records).find? (·.id = r.id) with
  | none => simpa using List.find?_eq_none.mp hfind r hr
  | some s =>
    have hid : s.id = r.id := by simpa using List.find?_some hfind
    have hs := List.mem_of_find?_eq_some hfind
    rw [List.inj_on_of_nodup_map (nodup_map_id_distinctIds records) hs hr hid]

theorem AgreeOnLabels.lastLabel_eq (h : AgreeOnLabels records) (id : RuleId) :
    lastLabel records id = firstLabel records id := by
  rw [lastLabel, firstLabel, firstLabel]
  cases hfirst : records.find? (·.id = id) with
  | none =>
    have hlast : records.reverse.find? (·.id = id) = none := by simpa using hfirst
    rw [hlast]
  | some r =>
    have hmem := List.mem_of_find?_eq_some hfirst
    have hid : r.id = id := by simpa using List.find?_some hfirst
    cases hlast : records.reverse.find? (·.id = id) with
    | none => exact absurd hid (by simpa using List.find?_eq_none.mp hlast r (by simpa using hmem))
    | some s =>
      have hmem' : s ∈ records := by simpa using List.mem_of_find?_eq_some hlast
      have hid' : s.id = id := by simpa using List.find?_some hlast
      exact h s hmem' r hmem (hid'.trans hid.symm)

end Record

/-! ## Deltas -/

namespace Delta

variable {d : Delta} {current prior prior' : List Record} {label label' : RuleId → Label}

/-- The misses that have the label. -/
def missesWith (d : Delta) (label : RuleId → Label) (l : Label) : SortedSet RuleId :=
  d.misses.filter (label · = l)

/-- Each miss is counted once, under its label. -/
def CountsMisses (d : Delta) (label : RuleId → Label) : Prop :=
  d.missesByLabel.Tallies fun l => (d.missesWith label l).size

theorem countsMisses_compute (current prior : List Record) :
    (compute current prior).CountsMisses (Record.firstLabel prior) := by
  refine (SortedMap.tallies_foldl_update _).congr fun l => ?_
  have hlabels : ((Record.distinctIds prior).filter (¬·.id ∈ Record.ids current)).map (·.label) =
      (((Record.distinctIds prior).filter (¬·.id ∈ Record.ids current)).map (·.id)).map
        (Record.firstLabel prior) := by
    -- a record that is kept is the first of its id, so its label is the first one of the id
    rw [List.map_map]
    refine List.map_congr_left fun r hr => ?_
    have hfind := Record.find?_eq_some_of_mem_distinctIds (List.mem_filter.mp hr).1
    rw [Function.comp_apply, Record.firstLabel, hfind, Option.map_some, Option.getD_some]
  rw [hlabels, List.count_eq_countP, List.countP_map, (map_id_missed_perm current prior).countP_eq,
    List.countP_eq_length_filter]
  rfl

/-- Misses cannot be counted in two ways. -/
theorem CountsMisses.iff (h : d.CountsMisses label) :
    d.CountsMisses label' ↔ ∀ l, (d.missesWith label' l).size = (d.missesWith label l).size :=
  ⟨fun h' => (h'.eq_iff h).mp rfl, fun hsizes => h.congr fun l => (hsizes l).symm⟩

theorem CountsMisses.congr (h : d.CountsMisses label)
    (hlabel : ∀ id ∈ d.misses, label id = label' id) : d.CountsMisses label' := by
  refine SortedMap.Tallies.congr h fun l => congrArg SortedSet.size ?_
  ext id
  simp only [missesWith, SortedSet.mem_filter, decide_eq_true_eq]
  exact and_congr_right fun hid => by rw [hlabel id hid]

/-- Against the same ids, deltas differ in the counts of their misses only. -/
theorem compute_eq_iff (hids : Record.ids prior = Record.ids prior') :
    compute current prior = compute current prior' ↔
      (compute current prior).CountsMisses (Record.firstLabel prior') := by
  have hmisses : (compute current prior).misses = (compute current prior').misses := by
    rw [compute, compute, hids]
  have hcounts := countsMisses_compute current prior'
  constructor
  · intro heq
    rw [heq]
    exact hcounts
  · intro hcounts'
    have hbyLabel :
        (compute current prior).missesByLabel = (compute current prior').missesByLabel :=
      (hcounts'.eq_iff hcounts).mpr fun l => by rw [missesWith, missesWith, hmisses]
    rw [compute, compute, Delta.mk.injEq]
    rw [compute, compute] at hbyLabel
    exact ⟨by rw [hids], by rw [hids], by rw [hids], hbyLabel⟩

end Delta

/-! ## Newest versions -/

/-- Of the versions but one, this is the newest that has a record of the rule. -/
structure History.IsNewestWith (h : History) (version : String) (id : RuleId) (tag : String)
    (records : List Record) : Prop where
  ne : tag ≠ version
  records?_eq : h.records? tag = some records
  mem_ids : id ∈ Record.ids records
  newest : ∀ tag' records', tag' ≠ version → h.records? tag' = some records' →
    id ∈ Record.ids records' → ¬Version.Before tag tag'

namespace Baseline

variable {h : History} {version : String} {b : Baseline} {id : RuleId}

/-- The records of the newest other version that has one of the rule. -/
def newestWith (b : Baseline) (id : RuleId) : List Record :=
  ((b.prior.reverse.find? (id ∈ Record.ids ·.2)).map Prod.snd).getD []

theorem pairwise_prior (hb : ofHistory h version = .ok b) :
    b.prior.Pairwise fun e e' => Version.Before e.1 e'.1 := by
  obtain ⟨current, -, -, rfl⟩ := ofHistory_eq_ok_iff.mp hb
  exact h.pairwise_ordered.filter _

theorem isNewestWith_newestWith (hb : ofHistory h version = .ok b)
    (hid : ∃ e ∈ b.prior, id ∈ Record.ids e.2) :
    ∃ tag, h.IsNewestWith version id tag (b.newestWith id) := by
  obtain ⟨e, he, hmem⟩ := hid
  have hsome : (b.prior.reverse.find? (id ∈ Record.ids ·.2)).isSome = true :=
    List.find?_isSome.mpr ⟨e, List.mem_reverse.mpr he, decide_eq_true hmem⟩
  obtain ⟨⟨tag, records⟩, hfind⟩ := Option.isSome_iff_exists.mp hsome
  obtain ⟨hprior, hrecords, hnewest⟩ := (find?_eq_some_iff_of_pairwise
    (fun _ _ => Version.Before.asymm) (List.pairwise_reverse.mpr (pairwise_prior hb))).mp hfind
  obtain ⟨hrecords?, hne⟩ := (mem_prior_iff hb).mp (List.mem_reverse.mp hprior)
  rw [newestWith, hfind]
  refine ⟨tag, hne, hrecords?, of_decide_eq_true hrecords, ?_⟩
  intro tag' records' hne' hrecords' hid'
  exact hnewest (tag', records') (List.mem_reverse.mpr ((mem_prior_iff hb).mpr ⟨hrecords', hne'⟩))
    (decide_eq_true hid')

end Baseline

/-! ## Reports -/

namespace StabilityReport

variable {h : History} {version : String} {b : Baseline} {id : RuleId}

/-- Of all versions together the last record of the rule in the newest that has one is kept. -/
theorem find?_priorUnion (b : Baseline) (id : RuleId) :
    (priorUnion b).find? (·.id = id) = (b.newestWith id).reverse.find? (·.id = id) := by
  rw [priorUnion, SortedMap.find?_values_ofList_keyed, List.reverse_flatMap, List.find?_flatMap,
    Baseline.newestWith]
  -- from the newest version to the oldest, until one has the rule
  induction b.prior.reverse with
  | nil => rfl
  | cons e l ih =>
    by_cases hid : id ∈ Record.ids e.2
    · obtain ⟨r, hr, heq⟩ := Record.mem_ids.mp hid
      have hsome : (e.2.reverse.find? (·.id = id)).isSome = true :=
        List.find?_isSome.mpr ⟨r, List.mem_reverse.mpr hr, decide_eq_true heq⟩
      obtain ⟨s, hs⟩ := Option.isSome_iff_exists.mp hsome
      rw [List.find?_cons_of_pos (by simpa using hid), List.findSome?_cons, Function.comp_apply, hs,
        Option.map_some, Option.getD_some, hs]
    · have hnone : e.2.reverse.find? (·.id = id) = none := by
        simpa [Record.mem_ids] using hid
      rw [List.find?_cons_of_neg (by simpa using hid), List.findSome?_cons, Function.comp_apply,
        hnone]
      exact ih

theorem firstLabel_priorUnion (b : Baseline) (id : RuleId) :
    Record.firstLabel (priorUnion b) id = Record.lastLabel (b.newestWith id) id := by
  rw [Record.firstLabel, find?_priorUnion, Record.lastLabel, Record.firstLabel]

/-- What a report counts misses under. The label that each version shows for a rule is that of its
first record; all versions together show the last record of the newest. -/
structure LabelsMisses (report : StabilityReport) (h : History) (version : String)
    (newest : RuleId → List Record) : Prop where
  isNewest : ∀ id ∈ report.overall.misses, ∃ tag, h.IsNewestWith version id tag (newest id)
  perVersion_counts : ∀ e ∈ report.perVersion, ∃ records, h.records? e.1 = some records ∧
    e.2.CountsMisses (Record.firstLabel records)
  overall_counts : report.overall.CountsMisses fun id => Record.lastLabel (newest id) id
  overall_counts_first_iff :
    report.overall.CountsMisses (fun id => Record.firstLabel (newest id) id) ↔
      ∀ l, (report.overall.missesWith (fun id => Record.firstLabel (newest id) id) l).size =
        (report.overall.missesWith (fun id => Record.lastLabel (newest id) id) l).size
  overall_counts_first_of_agree :
    (∀ tag records, tag ≠ version → h.records? tag = some records →
      Record.AgreeOnLabels records) →
    report.overall.CountsMisses fun id => Record.firstLabel (newest id) id
  overall_eq_iff : ∀ tag d, report.perVersion = [(tag, d)] →
    (report.overall = d ↔
      report.overall.CountsMisses fun id => Record.firstLabel (newest id) id)

/-- The only other version is the newest with each of its rules. -/
theorem overall_eq_iff_of_perVersion (b : Baseline) (benchmark : Option (List Record))
    {tag : String} {d : Delta} (hperVersion : (compute b benchmark).perVersion = [(tag, d)]) :
    (compute b benchmark).overall = d ↔ (compute b benchmark).overall.CountsMisses
      fun id => Record.firstLabel (b.newestWith id) id := by
  obtain ⟨⟨tag', records⟩, hprior, heq⟩ := List.map_eq_singleton_iff.mp hperVersion
  obtain ⟨rfl, rfl⟩ := Prod.mk.inj heq
  have hids : Record.ids (priorUnion b) = Record.ids records := by
    ext id
    simp [mem_ids_priorUnion, hprior]
  have hnewest : ∀ id ∈ (compute b benchmark).overall.misses,
      Record.firstLabel records id = Record.firstLabel (b.newestWith id) id := by
    intro id hid
    have hmem : id ∈ Record.ids records := by
      rw [← hids]
      exact (Delta.mem_misses_compute.mp hid).1
    simp [Baseline.newestWith, hprior, hmem]
  refine (Delta.compute_eq_iff hids).trans ⟨fun hcounts => hcounts.congr hnewest, fun hcounts => ?_⟩
  exact hcounts.congr fun id hid => (hnewest id hid).symm

/-- Each version counts the misses against it under the labels of their first records. All versions
together count each miss once, under the label of its last record in the newest version that has
one. They count as the first records there would exactly if each label is that of as many misses,
which holds if no version repeats a rule with another label. With one other version they are its
delta exactly then. -/
theorem labelsMisses_compute (hb : Baseline.ofHistory h version = .ok b)
    (benchmark : Option (List Record)) :
    (compute b benchmark).LabelsMisses h version b.newestWith := by
  have hcounts : (compute b benchmark).overall.CountsMisses
      fun id => Record.lastLabel (b.newestWith id) id :=
    (Delta.countsMisses_compute b.current (priorUnion b)).congr
      fun id _ => firstLabel_priorUnion b id
  have hnewest : ∀ id ∈ (compute b benchmark).overall.misses,
      ∃ tag, h.IsNewestWith version id tag (b.newestWith id) := fun id hid =>
    Baseline.isNewestWith_newestWith hb (mem_ids_priorUnion.mp (Delta.mem_misses_compute.mp hid).1)
  refine ⟨hnewest, fun e he => ?_, hcounts, hcounts.iff, fun hagree => ?_, fun tag d hperVersion =>
    overall_eq_iff_of_perVersion b benchmark hperVersion⟩
  · obtain ⟨⟨tag, records⟩, hmem, rfl⟩ := List.mem_map.mp he
    exact ⟨records, ((Baseline.mem_prior_iff hb).mp hmem).1,
      Delta.countsMisses_compute b.current records⟩
  · refine hcounts.congr fun id hid => ?_
    obtain ⟨tag, hnewest⟩ := hnewest id hid
    exact (hagree tag _ hnewest.ne hnewest.records?_eq).lastLabel_eq id

/-- Of a rule without sides. -/
def bareRecord (id : RuleId) (label : Label) : Record :=
  { id, antecedent := ∅, consequent := ∅, label }

/-- The only other version repeats a rule with another label. -/
def twiceLabelled : History := ⟨.ofList [
  ("v0.0.9", [bareRecord 1 .correct, bareRecord 1 .notARule]),
  ("v0.0.10", [bareRecord 2 .correct])]⟩

theorem ofHistory_twiceLabelled : Baseline.ofHistory twiceLabelled "v0.0.10" =
    .ok ⟨"v0.0.10", [bareRecord 2 .correct],
      [("v0.0.9", [bareRecord 1 .correct, bareRecord 1 .notARule])]⟩ := by
  have hkeys : twiceLabelled.versions.keys = .ofList ["v0.0.9", "v0.0.10"] := by decide +kernel
  have htags : twiceLabelled.tags = ["v0.0.9", "v0.0.10"] := by
    refine Version.eq_of_pairwise_before twiceLabelled.pairwise_tags (by decide +kernel) ?_
    intro tag
    rw [History.mem_tags_iff_mem_keys, hkeys, SortedSet.mem_ofList]
  refine Baseline.ofHistory_eq_ok_iff.mpr ⟨_, by rfl, by decide +kernel, ?_⟩
  rw [History.ordered, htags]
  rfl

theorem labelsMisses_twiceLabelled :
    ∃ b, Baseline.ofHistory twiceLabelled "v0.0.10" = .ok b ∧
      (compute b none).LabelsMisses twiceLabelled "v0.0.10" b.newestWith :=
  ⟨_, ofHistory_twiceLabelled, labelsMisses_compute ofHistory_twiceLabelled none⟩

/-- The one miss is counted under the label of its last record, but by the only other version under
that of its first. -/
theorem overall_twiceLabelled :
    ∃ b tag d, Baseline.ofHistory twiceLabelled "v0.0.10" = .ok b ∧
      (compute b none).perVersion = [(tag, d)] ∧ (compute b none).overall ≠ d ∧
      d.missesByLabel.entries = [(.correct, 1)] ∧
      (compute b none).overall.missesByLabel.entries = [(.notARule, 1)] := by
  refine ⟨_, _, _, ofHistory_twiceLabelled, by rfl, fun heq => ?_, by decide +kernel,
    by decide +kernel⟩
  have hentries := congrArg (·.missesByLabel.entries) heq
  revert hentries
  decide +kernel

end StabilityReport

end UsageRules
