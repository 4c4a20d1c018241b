import UsageRules.Proofs.Mining.ItemSets

/-! The filters of a run after pruning. Item sets pass them before required parameters are taken
out, and they are not tried again. What is left still passes them as far as the filters do not rest
on the required parameters themselves (`Miner.run_itemSets_filtered`); where they do, a run gives
item sets that do not pass (`Miner.itemSets_of_prunedCorpus`). -/

namespace UsageRules

namespace Miner

/-- Every item set of a run is what pruning leaves of item sets that passed all filters. Whenever no
required parameter of such a set declares the annotation of one of its parameters, what is left is
meaningful, and it mentions a target and the part of the library of the batch unless these stand in
required parameters only, behind the annotation. -/
theorem run_itemSets_filtered (m : Miner) (corpus : Corpus) :
    ∃ outcome, m.run corpus = .ok outcome ∧ ∀ f ∈ outcome.itemSets,
      (∃ b ∈ m.batches corpus, ∃ items, Candidate m.config m.required b items ∧
        items.strip m.required = f.items) ∧
      ∀ b ∈ m.batches corpus, ∀ items, Candidate m.config m.required b items →
        items.strip m.required = f.items → items.KeepsDeclarations m.required →
          f.items.isMeaningful = true ∧
          (f.items.mentionsAny m.config.targetPrefixes = true ∨
            ∀ text ∈ m.config.targetPrefixes, items.OnlyInParams m.required text) ∧
          (f.items.mentions b.subApi = true ∨ items.OnlyInParams m.required b.subApi) := by
  obtain ⟨-, -, outcome, hrun, -⟩ := exists_run m corpus
  refine ⟨outcome, hrun, fun f hf => ⟨?_, ?_⟩⟩
  · rw [itemSets_eq_of_run hrun] at hf
    obtain ⟨g, hg, rfl⟩ := List.mem_map.mp hf
    obtain ⟨b, hb, items, hcandidate, rfl⟩ :=
      exists_candidate_of_mem_survivors (mem_of_mem_maximalSets hg)
    exact ⟨b, hb, items, hcandidate, rfl⟩
  intro b _ items hcandidate hleft hkeeps
  rw [← hleft]
  have hmentions := ItemSet.mentions_strip_or_onlyInParams hkeeps hcandidate.meaningful
  refine ⟨ItemSet.isMeaningful_strip hkeeps hcandidate.meaningful, ?_, hmentions b.subApi⟩
  by_cases hany : (items.strip m.required).mentionsAny m.config.targetPrefixes = true
  · exact .inl hany
  right
  intro text htext
  rcases hmentions text with hmention | honly
  · exact absurd (List.any_eq_true.mpr ⟨text, htext, hmention⟩) hany
  · exact honly

/-! ## Runs that prune -/

/-- The annotations have a required parameter each. -/
def prunedParams : RequiredParams := .ofDeclarations [
  { name := "api.Retry", requiredParams := [⟨"times", "int"⟩] },
  { name := "Timeout", requiredParams := [⟨"value", "api.Duration"⟩] },
  { name := "Bound", requiredParams := [⟨"by", "String"⟩] }]

/-- A method that is tried again: the annotation is the library's. -/
def retry : ItemSet := .ofList [
  Fact.text "Annotation_api.Retry" "hasParam" "Param_times:int",
  Fact.text "Method" "annotatedWith" "Annotation_api.Retry",
  Fact.text "Method" "hasReturnType" "String"]

/-- A method with a timeout: only the type of the required parameter is the library's. -/
def timeout : ItemSet := .ofList [
  Fact.text "Annotation_Timeout" "hasParam" "Param_value:api.Duration",
  Fact.text "Method" "annotatedWith" "Annotation_Timeout",
  Fact.text "Method" "hasReturnType" "int"]

/-- A field with a probe: only the text of the required parameter says that there is one. -/
def boundProbe : ItemSet := .ofList [
  Fact.text "Annotation_Bound" "hasParam"
    (Fact.text "Param_by:String" "annotatedWith" "Annotation_api.Probe"),
  Fact.text "Field" "annotatedWith" "Annotation_Bound",
  Fact.text "Annotation_api.Probe" "hasParam" "Param_name:String"]

/-- Two projects with all of these. -/
def prunedCorpus : Corpus :=
  have hretry : retry.isEmpty = false := by decide +kernel
  have htimeout : timeout.isEmpty = false := by decide +kernel
  have hprobe : boundProbe.isEmpty = false := by decide +kernel
  let usages (project : String) : List Usage := [
    ⟨retry, { project }, hretry⟩, ⟨timeout, { project }, htimeout⟩,
    ⟨boundProbe, { project }, hprobe⟩]
  .ofList [("p", usages "p"), ("q", usages "q")]

theorem exists_run_prunedCorpus :
    ∃ m b outcome, make apiConfig prunedParams = .ok m ∧ m.config = apiConfig ∧
      m.required = prunedParams ∧ m.batches prunedCorpus = [b] ∧ b.subApi = "api" ∧
      m.run prunedCorpus = .ok outcome ∧
      ∀ items ∈ [retry, timeout, boundProbe], Candidate apiConfig prunedParams b items ∧
        ∃ f ∈ outcome.itemSets, f.items = items.strip prunedParams := by
  let sets := [retry, timeout, boundProbe, retry, timeout, boundProbe]
  obtain ⟨m, b, hmake, hconfig, hrequired, hbatches, hsubApi, hitemSets⟩ : ∃ m b,
      make apiConfig prunedParams = .ok m ∧ m.config = apiConfig ∧ m.required = prunedParams ∧
        m.batches prunedCorpus = [b] ∧ b.subApi = "api" ∧ b.itemSets = sets :=
    exists_batches_eq_singleton (by decide +kernel)
  obtain ⟨-, -, outcome, hrun, -⟩ := exists_run m prunedCorpus
  refine ⟨m, b, outcome, hmake, hconfig, hrequired, hbatches, hsubApi, hrun,
    fun items hitems => ?_⟩
  have hall : ∀ items ∈ [retry, timeout, boundProbe], items.isEmpty = false ∧
      2 ≤ supportIn sets items ∧ items.mentions "api" = true ∧
      items.mentionsAny apiConfig.targetPrefixes = true ∧ items.isMeaningful = true ∧
      2 ≤ (items.strip prunedParams).size ∧
      ∀ t ∈ sets, items.strip prunedParams ⊆ t.strip prunedParams →
        t.strip prunedParams ⊆ items.strip prunedParams := by decide +kernel
  obtain ⟨hne, hfrequent, hsub, htarget, hmeaningful, hlarge, hlargest⟩ := hall items hitems
  have hcandidate : Candidate apiConfig prunedParams b items :=
    ⟨hne, hitemSets ▸ hfrequent, hsubApi ▸ hsub, htarget, hmeaningful, hlarge⟩
  have hleft : LeavesMaximal m.config m.required (m.batches prunedCorpus)
      (items.strip prunedParams) (supportIn b.itemSets (items.strip prunedParams)) := by
    rw [hconfig, hrequired, hbatches]
    exact hcandidate.leavesMaximal (by decide) (hitemSets ▸ hlargest)
  exact ⟨hcandidate, exists_mem_itemSets_of_leavesMaximal (minSupport_pos_of_make hmake) hrun hleft⟩

theorem itemSets_of_retry :
    ∃ m outcome, make apiConfig prunedParams = .ok m ∧ m.run prunedCorpus = .ok outcome ∧
      ∃ f ∈ outcome.itemSets, f.items = retry.strip prunedParams ∧ f.items ≠ retry ∧
        f.items.isMeaningful = true ∧ f.items.mentions "api" = true := by
  obtain ⟨m, b, outcome, hmake, hconfig, hrequired, hbatches, hsubApi, hrun, hall⟩ :=
    exists_run_prunedCorpus
  obtain ⟨hcandidate, f, hf, hitems⟩ := hall retry (by simp)
  obtain ⟨outcome', hrun', hfiltered⟩ := run_itemSets_filtered m prunedCorpus
  cases hrun.symm.trans hrun'
  rw [hconfig, hrequired] at hfiltered
  have hkeeps : retry.KeepsDeclarations prunedParams := by decide +kernel
  have hdeclared : ¬retry.OnlyInParams prunedParams "api" := by decide +kernel
  obtain ⟨hmeaningful, -, hmentions⟩ :=
    (hfiltered f hf).2 b (by simp [hbatches]) retry hcandidate hitems.symm hkeeps
  rw [hsubApi] at hmentions
  refine ⟨m, outcome, hmake, hrun, f, hf, hitems, ?_, hmeaningful,
    hmentions.resolve_right hdeclared⟩
  rw [hitems]
  decide +kernel

/-- A run can give an item set without a target and without the part of the library of a batch, and
one that is not meaningful. -/
theorem itemSets_of_prunedCorpus :
    ∃ m outcome, make apiConfig prunedParams = .ok m ∧ m.run prunedCorpus = .ok outcome ∧
      (∃ f ∈ outcome.itemSets, f.items.mentionsAny apiConfig.targetPrefixes = false ∧
        ∀ b ∈ m.batches prunedCorpus, f.items.mentions b.subApi = false) ∧
      ∃ f ∈ outcome.itemSets, f.items.isMeaningful = false := by
  obtain ⟨m, b, outcome, hmake, -, -, hbatches, hsubApi, hrun, hall⟩ := exists_run_prunedCorpus
  obtain ⟨-, f, hf, hfitems⟩ := hall timeout (by simp)
  obtain ⟨-, g, hg, hgitems⟩ := hall boundProbe (by simp)
  refine ⟨m, outcome, hmake, hrun, ⟨f, hf, ?_, ?_⟩, ⟨g, hg, ?_⟩⟩
  · rw [hfitems]
    decide +kernel
  · intro b' hb'
    rw [hbatches, List.mem_singleton] at hb'
    rw [hb', hsubApi, hfitems]
    decide +kernel
  · rw [hgitems]
    decide +kernel

end Miner

end UsageRules
