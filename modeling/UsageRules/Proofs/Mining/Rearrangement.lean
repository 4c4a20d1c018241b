import UsageRules.Proofs.Corpus.Preparation
import UsageRules.Proofs.Mining.Stages

/-! Runs of corpora that differ in the arrangement of their usages. All that a run finds is counted
in batches, and batches with the same item sets in another order give the same sets and the same
rules (`MinedBatch.rules_eq`, `Miner.survivors_eq`). So the names of projects, the order of usages,
repeats, locations and projects that are not used have no part in the outcome
(`Miner.run_eq_of_transactionSets_perm`). -/

namespace UsageRules

open Generation Mining

/-! ## Counts -/

section Counts

variable {transactions transactions' : List ItemSet}

theorem supportIn_eq_of_perm (h : transactions.Perm transactions') (items : ItemSet) :
    supportIn transactions items = supportIn transactions' items := h.countP_eq _

/-- Mined sets are determined by the supports, and their order by the sets. -/
theorem mineFrequent_eq_of_perm (h : transactions.Perm transactions') (minSupport : Nat) :
    mineFrequent minSupport transactions = mineFrequent minSupport transactions' := by
  have hmem : ∀ f, f ∈ mineFrequent minSupport transactions ↔
      f ∈ mineFrequent minSupport transactions' := by
    intro f
    rw [mem_mineFrequent, mem_mineFrequent, supportIn_eq_of_perm h]
  have hperm :
      (mineFrequent minSupport transactions).Perm (mineFrequent minSupport transactions') :=
    (List.perm_ext_iff_of_nodup nodup_items_mineFrequent.of_map nodup_items_mineFrequent.of_map).mpr
      hmem
  refine hperm.eq_of_pairwise (fun f g _ _ hfg hgf => ?_) ascending_mineFrequent
    ascending_mineFrequent
  rcases hfg with hlt | ⟨heq, hlt⟩
  · rcases hgf with hlt' | ⟨heq', -⟩ <;> omega
  · rcases hgf with hlt' | ⟨-, hlt'⟩
    · omega
    · exact absurd hlt' (List.lt_asymm hlt)

theorem share_eq_of_perm (h : transactions.Perm transactions') (items : ItemSet)
    (consequent : String) :
    share transactions items consequent = share transactions' items consequent := by
  rw [share, share, supportIn_eq_of_perm h, supportIn_eq_of_perm h]

theorem countedPairs_eq_of_perm (h : transactions.Perm transactions') (minSupport : Nat)
    (minConfidence : Float) :
    countedPairs minSupport minConfidence transactions =
      countedPairs minSupport minConfidence transactions' := by
  simp only [countedPairs, mineFrequent_eq_of_perm h, share_eq_of_perm h]

theorem Generation.CountedRule.of_perm (h : transactions.Perm transactions')
    {pair : ItemSet × String} {r : Rule} (hr : CountedRule transactions pair r) :
    CountedRule transactions' pair r :=
  { hr with confidence_eq := share_eq_of_perm h pair.1 pair.2 ▸ hr.confidence_eq }

theorem SupportIndex.support_build_eq_of_perm (h : transactions.Perm transactions')
    (items : List String) :
    (build transactions).support items = (build transactions').support items := by
  rw [support_build, support_build, h.countP_eq]

end Counts

/-! ## Batches -/

/-- Two batches of one part of the library with the same item sets. -/
structure SameSets (b b' : Batch) : Prop where
  subApi_eq : b.subApi = b'.subApi
  itemSets_perm : b.itemSets.Perm b'.itemSets

namespace Corpus

/-- The item sets of the used projects, each once for a project. -/
def transactionSets (c : Corpus) (config : Config) : List ItemSet :=
  (c.usedProjects config).flatMap fun p => (p.2.map (·.items)).dedup

theorem map_items_firstUsages_perm (c : Corpus) (config : Config) :
    ((c.firstUsages config).map (·.items)).Perm (c.transactionSets config) := by
  rw [firstUsages, List.map_flatMap]
  exact List.Perm.flatMap_left _ fun p _ => Usage.map_items_firstUses_perm p.2

variable {c c' : Corpus} {config : Config} (router : Router)

theorem itemSets_transactionsOf_perm
    (h : (c.transactionSets config).Perm (c'.transactionSets config)) (key : String) :
    ((c.transactionsOf config router key).map (·.items)).Perm
      ((c'.transactionsOf config router key).map (·.items)) := by
  have hfirst :
      ((c.firstUsages config).map (·.items)).Perm ((c'.firstUsages config).map (·.items)) :=
    (map_items_firstUsages_perm c config).trans
      (h.trans (map_items_firstUsages_perm c' config).symm)
  have hfilter := hfirst.filter (key ∈ router.keys ·)
  rwa [List.filter_map, List.filter_map] at hfilter

/-- The batches of corpora with the same item sets have the same item sets one by one. -/
theorem forall₂_sameSets_prepare
    (h : (c.transactionSets config).Perm (c'.transactionSets config)) :
    List.Forall₂ SameSets (c.prepare config router).batches (c'.prepare config router).batches := by
  have hsets := itemSets_transactionsOf_perm router h
  have hlength : ∀ key, (c.transactionsOf config router key).length =
      (c'.transactionsOf config router key).length := fun key => by
    rw [← List.length_map (f := fun u => u.items), (hsets key).length_eq, List.length_map]
  have hkeys : c.keys config router = c'.keys config router := by
    ext key
    rw [mem_keys_iff_transactionsOf_ne_nil, mem_keys_iff_transactionsOf_ne_nil,
      ← List.length_pos_iff, ← List.length_pos_iff, hlength]
  rw [batches_prepare, batches_prepare, hkeys]
  simp only [isKept, hlength]
  refine List.forall₂_map_left_iff.mpr (List.forall₂_map_right_iff.mpr (List.forall₂_same.mpr ?_))
  intro key _
  exact ⟨rfl, hsets key⟩

end Corpus

/-! ## Stages -/

variable {config : Config} {required : RequiredParams} {batches batches' : List Batch}

theorem MinedBatch.rules_eq {b b' : Batch} {result result' : BucketResult} (hsame : SameSets b b')
    (h : MinedBatch config b result) (h' : MinedBatch config b' result') :
    result.rules = result'.rules := by
  have hcounted := h.counted.imp fun _ _ hr => hr.of_perm hsame.itemSets_perm
  rw [countedPairs_eq_of_perm hsame.itemSets_perm] at hcounted
  exact (CountedRule.rightUnique b'.itemSets).forall₂ hcounted h'.counted

/-- The rules of all batches together. -/
theorem flatMap_rules_eq {results results' : List BucketResult}
    (hsame : List.Forall₂ SameSets batches batches')
    (h : List.Forall₂ (MinedBatch config) batches results)
    (h' : List.Forall₂ (MinedBatch config) batches' results') :
    results.flatMap (·.rules) = results'.flatMap (·.rules) := by
  induction hsame generalizing results results' with
  | nil =>
    cases h
    cases h'
    rfl
  | cons hb _ ih =>
    cases h with
    | cons hresult hrest =>
      cases h' with
      | cons hresult' hrest' =>
        rw [List.flatMap_cons, List.flatMap_cons, hresult.rules_eq hb hresult', ih hrest hrest']

namespace Miner

/-- Stripping looks at the index only to count what is left. -/
theorem prune_congr {f : FrequentSet} {index index' : SupportIndex}
    (h : ∀ items, index.support items = index'.support items) :
    prune required (f, index) = prune required (f, index') := by
  rw [prune, prune, h]

theorem survivors_eq (h : List.Forall₂ SameSets batches batches') :
    survivors config required batches = survivors config required batches' := by
  have hcandidates : ∀ batches, survivors config required batches = batches.flatMap fun b =>
      (((((mineFrequent config.minSupport b.itemSets).filter (·.items.mentions b.subApi)).filter
        (·.items.mentionsAny config.targetPrefixes)).filter (·.items.isMeaningful)).filterMap
          fun f => prune required (f, SupportIndex.build b.itemSets)).filter (2 ≤ ·.size) := by
    intro batches
    simp only [survivors, List.filter_flatMap, List.filterMap_flatMap, List.filter_map,
      List.filterMap_map, Function.comp_def]
  rw [hcandidates, hcandidates]
  refine (flatMap_eq_of_forall₂ (h.imp fun b b' hsame => ?_)).symm
  rw [mineFrequent_eq_of_perm hsame.itemSets_perm, hsame.subApi_eq]
  congr 2
  funext f
  exact prune_congr fun items =>
    (SupportIndex.support_build_eq_of_perm hsame.itemSets_perm items).symm

/-- A run depends on nothing but the item sets of the used projects, each once for a project. -/
theorem run_eq_of_transactionSets_perm (m : Miner) {c c' : Corpus}
    (hsets : (c.transactionSets m.config).Perm (c'.transactionSets m.config)) :
    ∃ outcome outcome', m.run c = .ok outcome ∧ m.run c' = .ok outcome' ∧
      outcome.itemSets = outcome'.itemSets ∧ outcome.rules = outcome'.rules := by
  obtain ⟨results, rules, outcome, hrun, hmined, hselected, hitemSets, hrules⟩ := exists_run m c
  obtain ⟨results', rules', outcome', hrun', hmined', hselected', hitemSets', hrules'⟩ :=
    exists_run m c'
  have hsame : List.Forall₂ SameSets (m.batches c) (m.batches c') :=
    Corpus.forall₂_sameSets_prepare m.router hsets
  have hsurvivors : survivors m.config m.required (m.batches c) =
      survivors m.config m.required (m.batches c') := survivors_eq hsame
  have hcounted := flatMap_rules_eq hsame hmined hmined'
  have hunique : Relator.RightUnique fun (f : FrequentSet) (r : Rule) =>
      2 ≤ f.size ∧ selectRule (results'.flatMap (·.rules)) f = .ok r := by
    intro f r r' hr hr'
    exact Except.ok.inj (hr.2.symm.trans hr'.2)
  rw [hsurvivors, hcounted] at hselected
  refine ⟨outcome, outcome', hrun, hrun', ?_, ?_⟩
  · rw [hitemSets, hitemSets', hsurvivors]
  · rw [hrules, hrules', hunique.forall₂ hselected hselected']

/-- A class that is annotated as a check of the library and implements nothing. -/
def apiLabel : ItemSet := .singleton (Fact.text "Class" "annotatedWith" "Annotation_api.Health")

theorem isEmpty_apiCheck : apiCheck.isEmpty = false := by decide +kernel

/-- Two projects with a check, of which the first has a class without one, too. -/
def apiProjects : Corpus := .ofList [
  ("p", [⟨apiCheck, { project := "p" }, isEmpty_apiCheck⟩, ⟨apiLabel, { project := "p" }, rfl⟩]),
  ("q", [⟨apiCheck, { project := "q" }, isEmpty_apiCheck⟩])]

/-- The same classes in projects of other names, in another order and with a repeat, besides a toy
and a project without usages. -/
def apiProjectsRearranged : Corpus := .ofList [
  ("a", [⟨apiCheck, { project := "a" }, isEmpty_apiCheck⟩]),
  ("b", [⟨apiLabel, { project := "b", file := "B.java" }, rfl⟩,
    ⟨apiCheck, { project := "b" }, isEmpty_apiCheck⟩, ⟨apiLabel, { project := "b" }, rfl⟩]),
  ("my-demo", [⟨apiLabel, { project := "my-demo" }, rfl⟩]),
  ("z", [])]

theorem runs_of_apiProjects :
    ∃ m outcome outcome', make apiConfig ∅ = .ok m ∧
      (apiProjects.transactionSets apiConfig).Perm
        (apiProjectsRearranged.transactionSets apiConfig) ∧
      m.run apiProjects = .ok outcome ∧ m.run apiProjectsRearranged = .ok outcome' ∧
      outcome.itemSets = outcome'.itemSets ∧ outcome.rules = outcome'.rules := by
  obtain ⟨m, -, hmake, hconfig, -⟩ := exists_batches_apiCorpus
  have hsets : (apiProjects.transactionSets apiConfig).Perm
      (apiProjectsRearranged.transactionSets apiConfig) := by decide +kernel
  obtain ⟨outcome, outcome', h⟩ := run_eq_of_transactionSets_perm m (hconfig ▸ hsets)
  exact ⟨m, outcome, outcome', hmake, hsets, h⟩

end Miner

end UsageRules
