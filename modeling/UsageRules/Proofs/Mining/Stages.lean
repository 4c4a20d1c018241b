import UsageRules.Miner
import UsageRules.Proofs.Config
import UsageRules.Proofs.Convention.MaximalSets
import UsageRules.Proofs.Convention.RuleChoice
import UsageRules.Proofs.Rule.Generation

/-! The stages of a mining run. No stage fails, and the outcome is that of the stages taken one
after the other (`Miner.exists_run`). What is left for reduction are the stripped candidates,
counted anew (`Miner.mem_survivors`). -/

namespace UsageRules

open Generation Mining

namespace Miner

/-! ## Accepted configurations -/

section Make

variable [PatternLanguage] {config : Config} {required : RequiredParams} {m : Miner}

theorem eq_of_make (h : make config required = .ok m) :
    m.config = config ∧ m.required = required ∧ config.validate = .ok () := by
  rw [make] at h
  cases hvalidate : config.validate with
  | error e =>
    rw [hvalidate] at h
    cases h
  | ok u =>
    rw [hvalidate] at h
    cases hrouter : Router.ofConfig config with
    | error e =>
      rw [hrouter] at h
      cases h
    | ok router =>
      rw [hrouter] at h
      cases h
      exact ⟨rfl, rfl, rfl⟩

/-- An accepted configuration asks for some support. Results about runs need no more of it. -/
theorem minSupport_pos_of_make (h : make config required = .ok m) : 0 < m.config.minSupport := by
  obtain ⟨rfl, -, hvalidate⟩ := eq_of_make h
  exact Config.minSupport_pos_of_validate hvalidate

end Make

end Miner

/-! ## Batches -/

/-- What mining a batch gives. -/
structure MinedBatch (config : Config) (batch : Batch) (result : BucketResult) : Prop where
  frequent_eq : result.frequent =
    (mineFrequent config.minSupport batch.itemSets).filter (·.items.mentions batch.subApi)
  index_eq : result.index = SupportIndex.build batch.itemSets
  counted : List.Forall₂ (CountedRule batch.itemSets)
    (countedPairs config.minSupport config.minConfidence batch.itemSets) result.rules

theorem exists_ofBatch (config : Config) (batch : Batch) :
    ∃ result, BucketResult.ofBatch config batch = .ok result ∧
      MinedBatch config batch result := by
  obtain ⟨rules, hrules, hcounted⟩ :=
    exists_generateRules_mineFrequent config.minSupport config.minConfidence batch.itemSets
  rw [BucketResult.ofBatch]
  simp only [hrules, bind, Except.bind]
  exact ⟨_, rfl, rfl, rfl, hcounted⟩

namespace Miner

/-! ## Candidates -/

/-- A frequent set of a batch that passes all filters of a run. -/
structure Candidate (config : Config) (required : RequiredParams) (batch : Batch)
    (items : ItemSet) : Prop where
  nonempty : items.isEmpty = false
  frequent : config.minSupport ≤ supportIn batch.itemSets items
  inSubApi : items.mentions batch.subApi = true
  onTarget : items.mentionsAny config.targetPrefixes = true
  meaningful : items.isMeaningful = true
  large : 2 ≤ (items.strip required).size

/-- What the stages before the reduction let through. -/
def survivors (config : Config) (required : RequiredParams) (batches : List Batch) :
    List FrequentSet :=
  let candidates := batches.flatMap fun b =>
    ((mineFrequent config.minSupport b.itemSets).filter (·.items.mentions b.subApi)).map
      (·, SupportIndex.build b.itemSets)
  let onTarget := candidates.filter (·.1.items.mentionsAny config.targetPrefixes)
  let meaningful := onTarget.filter (·.1.items.isMeaningful)
  (meaningful.filterMap (prune required)).filter (2 ≤ ·.size)

theorem items_of_prune_eq_some {required : RequiredParams} {f g : FrequentSet}
    {index : SupportIndex} (h : prune required (f, index) = some g) :
    g.items = f.items.strip required := by
  rw [prune] at h
  split at h
  · rename_i hsize
    cases h
    exact (SortedSet.eq_of_subset_of_size_le
      (fun _ ha => (SortedSet.mem_filter.mp ha).1) (Nat.le_of_eq hsize.symm)).symm
  · split at h
    · cases h
    · cases h
      rfl

/-- Stripping counts anew: the frequency is the support of what is left. -/
theorem prune_eq_some {required : RequiredParams} {transactions : List ItemSet} {items : ItemSet}
    (hne : (items.strip required).isEmpty = false) :
    prune required ({ items, frequency := supportIn transactions items },
        SupportIndex.build transactions) =
      some {
        items := items.strip required
        frequency := supportIn transactions (items.strip required) } := by
  rw [prune]
  split
  · rename_i hsize
    have heq : items.strip required = items := SortedSet.eq_of_subset_of_size_le
      (fun _ ha => (SortedSet.mem_filter.mp ha).1) (Nat.le_of_eq hsize.symm)
    rw [heq]
  · rw [hne, SupportIndex.support_build_items]
    rfl

section Survivors

variable {config : Config} {required : RequiredParams} {batches : List Batch} {f : FrequentSet}

theorem exists_candidate_of_mem_survivors (hf : f ∈ survivors config required batches) :
    ∃ b ∈ batches, ∃ items, Candidate config required b items ∧
      f = {
        items := items.strip required
        frequency := supportIn b.itemSets (items.strip required) } := by
  simp only [survivors, List.mem_filter, List.mem_filterMap, List.mem_flatMap, List.mem_map,
    decide_eq_true_eq] at hf
  obtain ⟨⟨c, ⟨⟨⟨b, hb, g, ⟨hmined, hinSubApi⟩, rfl⟩, honTarget⟩, hmeaningful⟩, hprune⟩, hlarge⟩ :=
    hf
  obtain ⟨hne, hle, heq⟩ := mem_mineFrequent.mp hmined
  rw [FrequentSet.size, items_of_prune_eq_some hprune] at hlarge
  have hrest : (g.items.strip required).isEmpty = false :=
    SortedSet.isEmpty_eq_false_iff.mpr (by omega)
  rw [heq, prune_eq_some hrest] at hprune
  cases hprune
  exact ⟨b, hb, g.items, {
    nonempty := hne
    frequent := Nat.le_trans (Nat.le_max_left ..) hle
    inSubApi := hinSubApi
    onTarget := honTarget
    meaningful := hmeaningful
    large := hlarge }, rfl⟩

theorem mem_survivors (hsupport : 0 < config.minSupport) :
    f ∈ survivors config required batches ↔
      ∃ b ∈ batches, ∃ items, Candidate config required b items ∧
        f = {
          items := items.strip required
          frequency := supportIn b.itemSets (items.strip required) } := by
  refine ⟨exists_candidate_of_mem_survivors, ?_⟩
  rintro ⟨b, hb, items, hcandidate, rfl⟩
  have hthreshold : threshold config.minSupport = config.minSupport := Nat.max_eq_left hsupport
  have hmined : { items, frequency := supportIn b.itemSets items } ∈
      mineFrequent config.minSupport b.itemSets :=
    mem_mineFrequent.mpr ⟨hcandidate.nonempty, hthreshold.symm ▸ hcandidate.frequent, rfl⟩
  have hrest : (items.strip required).isEmpty = false :=
    SortedSet.isEmpty_eq_false_iff.mpr (Nat.lt_of_lt_of_le Nat.two_pos hcandidate.large)
  simp only [survivors, List.mem_filter, List.mem_filterMap, List.mem_flatMap, List.mem_map,
    decide_eq_true_eq]
  exact ⟨⟨_, ⟨⟨⟨b, hb, _, ⟨hmined, hcandidate.inSubApi⟩, rfl⟩, hcandidate.onTarget⟩,
    hcandidate.meaningful⟩, prune_eq_some hrest⟩, hcandidate.large⟩

end Survivors

/-! ## Runs -/

/-- The batches that a run mines. -/
def batches (m : Miner) (corpus : Corpus) : List Batch :=
  (corpus.prepare m.config m.router).batches

/-- No stage fails, and each set that is left gets a rule. -/
theorem exists_run (m : Miner) (corpus : Corpus) :
    ∃ results rules outcome, m.run corpus = .ok outcome ∧
      List.Forall₂ (MinedBatch m.config) (m.batches corpus) results ∧
      List.Forall₂ (fun f r => 2 ≤ f.size ∧ selectRule (results.flatMap (·.rules)) f = .ok r)
        (maximalSets (survivors m.config m.required (m.batches corpus))) rules ∧
      outcome.itemSets = (maximalSets (survivors m.config m.required (m.batches corpus))).map
        ({ · with version := m.config.version }) ∧
      outcome.rules = rules.map ({ · with version := m.config.version }) := by
  obtain ⟨results, hresults, hmined⟩ := exists_mapM_eq_ok
    fun b (_ : b ∈ m.batches corpus) => exists_ofBatch m.config b
  have hcandidates : results.flatMap (fun b => b.frequent.map (·, b.index)) =
      (m.batches corpus).flatMap fun b =>
        ((mineFrequent m.config.minSupport b.itemSets).filter (·.items.mentions b.subApi)).map
          (·, SupportIndex.build b.itemSets) :=
    flatMap_eq_of_forall₂ (hmined.imp fun b result hb => by rw [hb.frequent_eq, hb.index_eq])
  have hselectable : ∀ f ∈ maximalSets (survivors m.config m.required (m.batches corpus)), ∃ r,
      selectRule (results.flatMap (·.rules)) f = .ok r ∧
        (2 ≤ f.size ∧ selectRule (results.flatMap (·.rules)) f = .ok r) := by
    intro f hf
    have hlarge : 2 ≤ f.size :=
      of_decide_eq_true (List.mem_filter.mp (mem_of_mem_maximalSets hf)).2
    obtain ⟨r, hr, -⟩ := exists_selectRule (results.flatMap (·.rules)) hlarge
    exact ⟨r, hr, hlarge, hr⟩
  obtain ⟨rules, hrules, hselected⟩ := exists_mapM_eq_ok hselectable
  rw [← selectRules, survivors] at hrules
  rw [batches] at hresults hcandidates hrules
  refine ⟨results, rules, ?_⟩
  rw [run]
  simp only [hresults, hcandidates, hrules, bind, Except.bind]
  exact ⟨_, rfl, hmined, hselected, rfl, rfl⟩

theorem itemSets_eq_of_run {m : Miner} {corpus : Corpus} {outcome : MiningOutcome}
    (h : m.run corpus = .ok outcome) :
    outcome.itemSets = (maximalSets (survivors m.config m.required (m.batches corpus))).map
      ({ · with version := m.config.version }) := by
  obtain ⟨-, -, outcome', hrun, -, -, hitemSets, -⟩ := exists_run m corpus
  cases h.symm.trans hrun
  exact hitemSets

/-- The only batch of a corpus, if the parts and the item sets of its batches are known. -/
theorem exists_batches_eq_singleton [PatternLanguage] {config : Config} {required : RequiredParams}
    {corpus : Corpus} {subApi : String} {itemSets : List ItemSet}
    (h : (make config required).toOption.map
      (fun m => (m.batches corpus).map fun b => (b.subApi, b.itemSets)) =
        some [(subApi, itemSets)]) :
    ∃ m b, make config required = .ok m ∧ m.config = config ∧ m.required = required ∧
      m.batches corpus = [b] ∧ b.subApi = subApi ∧ b.itemSets = itemSets := by
  cases hmake : make config required with
  | error e =>
    rw [hmake] at h
    cases h
  | ok m =>
    obtain ⟨hconfig, hrequired, -⟩ := eq_of_make hmake
    rw [hmake] at h
    obtain ⟨b, hb, hfields⟩ := List.map_eq_singleton_iff.mp (Option.some.inj h)
    obtain ⟨hsubApi, hitemSets⟩ := Prod.mk.inj hfields
    exact ⟨m, b, rfl, hconfig, hrequired, hb, hsubApi, hitemSets⟩

/-! ## A small corpus -/

/-- Settings for a library that is called `api`. -/
def apiConfig : Config where
  minSupport := 2
  targetPrefixes := ["api"]
  libraryText := "api"
  subApiPattern := "api"
  subApiPrefixes := ["api"]
  minBucketTransactions := 1

/-- A class that implements a check of the library and is annotated accordingly. -/
def apiCheck : ItemSet := .ofList [
  Fact.text "Class" "annotatedWith" "Annotation_api.Health",
  Fact.text "Class" "implements" "Class_api.Check"]

/-- Two projects with such a class. -/
def apiCorpus : Corpus :=
  have hne : apiCheck.isEmpty = false := by decide +kernel
  .ofList [
    ("p", [⟨apiCheck, { project := "p" }, hne⟩]),
    ("q", [⟨apiCheck, { project := "q" }, hne⟩])]

theorem exists_batches_apiCorpus :
    ∃ m b, make apiConfig ∅ = .ok m ∧ m.config = apiConfig ∧ m.required = ∅ ∧
      m.batches apiCorpus = [b] ∧ b.subApi = "api" ∧ b.itemSets = [apiCheck, apiCheck] :=
  exists_batches_eq_singleton (by decide +kernel)

end Miner

end UsageRules
