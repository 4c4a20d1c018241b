import UsageRules.Proofs.History.CarryOver
import UsageRules.Proofs.History.Lookup
import UsageRules.Proofs.Stability.Accounts

/-! What is new in a version. Annotation dates a mined rule by its sightings, a report divides the
records of the version by sets of ids; once the rules are reviewed and stored under a new tag the
two agree (`StabilityReport.mem_new_iff_version_eq`). -/

namespace UsageRules

/-! ## Storing under a new tag -/

namespace History

variable {h : History} {tag : String} {records : List Record}

/-- The other versions stay as they are. -/
theorem filter_ordered_store (hnew : tag ∉ h.tags) :
    (h.store tag records).ordered.filter (·.1 ≠ tag) = h.ordered := by
  have hne : ∀ t ∈ h.tags, t ≠ tag := by
    rintro t ht rfl
    exact hnew ht
  have htags : (h.store tag records).tags.filter (· ≠ tag) = h.tags := by
    refine eq_tags ((pairwise_tags _).filter _) fun t => ?_
    rw [List.mem_filter, decide_eq_true_eq, tags_store, mem_around_iff, ← mem_tags_iff]
    exact ⟨fun ⟨ht, hother⟩ => ht.resolve_left hother, fun ht => ⟨.inr ht, hne t ht⟩⟩
  calc (h.store tag records).ordered.filter (·.1 ≠ tag)
      = ((h.store tag records).tags.filter (· ≠ tag)).map
          fun t => (t, ((h.store tag records).records? t).getD []) := by
        rw [ordered, List.filter_map]
        rfl
    _ = h.ordered := by
      rw [htags, ordered]
      refine List.map_congr_left fun t ht => ?_
      rw [records?_store, if_neg (hne t ht)]

end History

/-! ## Reviewed rules -/

/-- A record of the rule with a label that a reviewer gave it. -/
structure Record.Reviews (s : Record) (r : Rule) : Prop where
  id_eq : s.id = r.id
  antecedent_eq : s.antecedent = r.antecedent
  consequent_eq : s.consequent = .singleton r.consequent
  label_ne : s.label ≠ .unknown

theorem Record.mem_ids_of_reviews {records : List Record} {rules : List Rule}
    (hreviewed : List.Forall₂ Record.Reviews records rules) {r : Rule} (hr : r ∈ rules) :
    r.id ∈ Record.ids records := by
  obtain ⟨s, hs, hreviews⟩ := exists_mem_left hreviewed hr
  exact Record.mem_ids.mpr ⟨s, hs, hreviews.id_eq⟩

namespace StabilityReport

variable {h : History} {version : String}

/-- The baseline of reviewed rules that are stored under a new tag has the versions of the history.
-/
theorem ofHistory_store {records : List Record} (hnew : version ∉ h.tags)
    (hknown : ∀ s ∈ records, s.label ≠ .unknown) :
    Baseline.ofHistory (h.store version records) version = .ok ⟨version, records, h.ordered⟩ := by
  refine Baseline.ofHistory_eq_ok_iff.mpr ⟨records, ?_, hknown, ?_⟩
  · rw [History.records?_store, if_pos rfl]
  · rw [History.filter_ordered_store hnew]

/-- The first delta that a current id is a hit of is that of the oldest version with the id. -/
theorem map_fst_find?_perVersion {b : Baseline} {id : RuleId}
    (hid : id ∈ Record.ids b.current) (benchmark : Option (List Record)) :
    ((compute b benchmark).perVersion.find? (id ∈ ·.2.hits)).map Prod.fst =
      (b.prior.find? (id ∈ Record.ids ·.2)).map Prod.fst := by
  change ((b.prior.map fun e => (e.1, Delta.compute b.current e.2)).find?
    (id ∈ ·.2.hits)).map Prod.fst = _
  have htest : ((fun e : String × Delta => decide (id ∈ e.2.hits)) ∘
      fun e : String × List Record => (e.1, Delta.compute b.current e.2)) =
      fun e => decide (id ∈ Record.ids e.2) := by
    funext e
    simp [hid]
  rw [List.find?_map, htest, Option.map_map]
  rfl

/-- Of a current rule, the overall delta says whether there is an older version with its id. -/
theorem mem_overall_new_iff_find?_eq_none {b : Baseline} {id : RuleId}
    (hid : id ∈ Record.ids b.current) (benchmark : Option (List Record)) :
    id ∈ (compute b benchmark).overall.new ↔ b.prior.find? (id ∈ Record.ids ·.2) = none := by
  simp only [compute, Delta.mem_new_compute, hid, true_and, mem_ids_priorUnion,
    List.find?_eq_none, decide_eq_true_eq, not_exists, not_and]

/-- If freshly mined rules are reviewed and stored under a new tag, the report of their version
calls those new that annotation dated with it. The others are hits, and annotation dated them with
the first version whose delta has them as hits. -/
theorem mem_new_iff_version_eq (h : History) (rules : List Rule) (records : List Record)
    (hnew : version ∉ h.tags)
    (hreviewed : List.Forall₂ Record.Reviews records (h.annotate rules version)) :
    ∃ b, Baseline.ofHistory (h.store version records) version = .ok b ∧
      ∀ benchmark, ∀ r ∈ h.annotate rules version,
        (r.id ∈ (compute b benchmark).overall.new ↔ r.version = version) ∧
        (r.version ≠ version → r.id ∈ (compute b benchmark).overall.hits ∧
          ((compute b benchmark).perVersion.find? (r.id ∈ ·.2.hits)).map Prod.fst =
            some r.version) := by
  have hknown : ∀ s ∈ records, s.label ≠ .unknown := by
    intro s hs
    obtain ⟨r, -, hreviews⟩ := exists_mem_right hreviewed hs
    exact hreviews.label_ne
  refine ⟨_, ofHistory_store hnew hknown, fun benchmark r hr => ?_⟩
  have hid := Record.mem_ids_of_reviews hreviewed hr
  have hversion : r.version =
      ((h.ordered.find? (r.id ∈ Record.ids ·.2)).map Prod.fst).getD version := by
    rw [History.annotate_eq] at hr
    obtain ⟨r', -, rfl⟩ := List.mem_map.mp hr
    exact h.firstVersionOf_eq r'.id version
  rw [mem_overall_new_iff_find?_eq_none hid, map_fst_find?_perVersion hid, hversion]
  cases hfind : h.ordered.find? (r.id ∈ Record.ids ·.2) with
  | none => simp
  | some e =>
    have he : e ∈ h.ordered := List.mem_of_find?_eq_some hfind
    have hearlier : r.id ∈ Record.ids e.2 := by simpa using List.find?_some hfind
    have hne : e.1 ≠ version := by
      rintro rfl
      exact hnew (History.mem_tags_iff.mpr ⟨e.2, History.mem_ordered_iff.mp he⟩)
    have hhit : r.id ∈ (compute ⟨version, records, h.ordered⟩ benchmark).overall.hits :=
      Delta.mem_hits_compute.mpr ⟨hid, mem_ids_priorUnion.mpr ⟨e, he, hearlier⟩⟩
    simp [hne, hhit]

/-- What has a source is injected. -/
def sourcedRule : Rule where
  antecedent := .singleton (Fact.text "Field" "annotatedWith" "Annotation_ConfigProperty")
  consequent := Fact.text "Field" "annotatedWith" "Annotation_Inject"
  confidence := 1.0
  antecedent_nonempty := rfl
  consequent_fresh := by decide +kernel

/-- A rule that the history knows, and one that it does not. -/
def reviewedTwice : List Record := [
  { Record.ofRule History.injectedRule with label := .correct },
  { Record.ofRule sourcedRule with label := .notARule }]

theorem mem_new_iff_of_reviewedTwice :
    ∃ b, Baseline.ofHistory (History.reviewedOnce.store "v0.0.11" reviewedTwice) "v0.0.11" = .ok b ∧
      ∀ r ∈ History.reviewedOnce.annotate [History.injectedRule, sourcedRule] "v0.0.11",
        (r.id ∈ (compute b none).overall.new ↔ r.version = "v0.0.11") := by
  have hnew : "v0.0.11" ∉ History.reviewedOnce.tags := by
    rw [History.tags_reviewedOnce]
    decide
  have hreviewed : List.Forall₂ Record.Reviews reviewedTwice
      (History.reviewedOnce.annotate [History.injectedRule, sourcedRule] "v0.0.11") := by
    rw [History.annotate_eq]
    exact .cons ⟨rfl, rfl, rfl, by decide⟩ (.cons ⟨rfl, rfl, rfl, by decide⟩ .nil)
  obtain ⟨b, hb, hall⟩ := mem_new_iff_version_eq History.reviewedOnce
    [History.injectedRule, sourcedRule] reviewedTwice hnew hreviewed
  exact ⟨b, hb, fun r hr => (hall none r hr).1⟩

end StabilityReport

end UsageRules
