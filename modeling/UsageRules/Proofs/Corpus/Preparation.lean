import UsageRules.Proofs.Corpus.Batches

/-! The preparation of a corpus. Its batches and counts are described from the projects alone,
without regard to the steps by which they are found (`Corpus.preparedFrom_prepare`). -/

namespace UsageRules

namespace Corpus

variable {c : Corpus} {config : Config} {router : Router}

/-! ## Projects -/

/-- The projects that are no toys and have enough usages, repeats included. -/
def usedProjects (c : Corpus) (config : Config) : List (String × List Usage) :=
  c.entries.filter fun p => !config.excludes p.1 && config.minUsagesPerProject ≤ p.2.length

theorem used_eq (c : Corpus) (config : Config) :
    c.used config = (c.usedProjects config).map Prod.snd := by
  simp only [used, serious, usedProjects, List.filter_map, List.filter_filter]
  congr 1
  apply List.filter_congr
  intro p _
  exact Bool.and_comm ..

/-- The members of a list that pass a test, and those that do not. -/
theorem length_eq_countP_add_length_filter {α : Type} (test : α → Bool) (l : List α) :
    l.length = l.countP (!test ·) + (l.filter test).length := by
  rw [List.length_eq_countP_add_countP test, List.countP_eq_length_filter (p := test), Nat.add_comm]
  simp only [Bool.not_eq_true, Bool.decide_eq_false]

theorem size_eq (c : Corpus) (config : Config) :
    c.size = c.entries.countP (config.excludes ·.1) + (c.serious config).length := by
  rw [SortedMap.size, length_eq_countP_add_length_filter (!config.excludes ·.1), serious,
    List.length_map]
  simp only [Bool.not_not]

theorem length_serious (c : Corpus) (config : Config) :
    (c.serious config).length =
      c.entries.countP
          (fun p => !config.excludes p.1 && p.2.length < config.minUsagesPerProject) +
        (c.used config).length := by
  rw [used, length_eq_countP_add_length_filter (config.minUsagesPerProject ≤ ·.length)]
  congr 1
  rw [serious, List.countP_map, List.countP_filter]
  apply List.countP_congr
  intro p _
  simp [and_comm]

/-! ## Transactions -/

/-- The first usages of every item set of every used project, in the order of the projects. -/
def firstUsages (c : Corpus) (config : Config) : List Usage :=
  (c.usedProjects config).flatMap fun p => Usage.firstUses p.2

/-- The transactions of a part of the library: those of the first usages that mention it. -/
def transactionsOf (c : Corpus) (config : Config) (router : Router) (key : String) : List Usage :=
  (c.firstUsages config).filter (key ∈ router.keys ·.items)

/-- The parts of the library that a corpus mentions. -/
def keys (c : Corpus) (config : Config) (router : Router) : SortedSet String :=
  router.keysOfSets ((c.firstUsages config).map (·.items))

theorem flatten_map_distinct (c : Corpus) (config : Config) :
    ((c.used config).map Usage.distinct).flatten = c.firstUsages config := by
  rw [used_eq, List.map_map, firstUsages, List.flatMap]
  simp only [Function.comp_def, Usage.distinct_eq_firstUses]

theorem mem_keys_iff_exists_usage {key : String} :
    key ∈ c.keys config router ↔
      ∃ p ∈ c.usedProjects config, ∃ u ∈ p.2, key ∈ router.keys u.items := by
  rw [keys, Router.mem_keysOfSets, firstUsages]
  constructor
  · rintro ⟨items, hitems, hkey⟩
    obtain ⟨u, hu, rfl⟩ := List.mem_map.mp hitems
    obtain ⟨p, hp, hup⟩ := List.mem_flatMap.mp hu
    obtain ⟨v, hv, heq⟩ :=
      List.mem_map.mp (Usage.mem_map_items_firstUses.mp (List.mem_map_of_mem hup))
    exact ⟨p, hp, v, hv, heq.symm ▸ hkey⟩
  · rintro ⟨p, hp, u, hu, hkey⟩
    obtain ⟨v, hv, heq⟩ :=
      List.mem_map.mp (Usage.mem_map_items_firstUses.mpr (List.mem_map_of_mem hu))
    exact ⟨v.items, List.mem_map_of_mem (List.mem_flatMap.mpr ⟨p, hp, hv⟩), heq.symm ▸ hkey⟩

theorem mem_keys_iff_transactionsOf_ne_nil {key : String} :
    key ∈ c.keys config router ↔ c.transactionsOf config router key ≠ [] := by
  rw [keys, Router.mem_keysOfSets, transactionsOf, ne_eq, List.filter_eq_nil_iff]
  simp only [List.mem_map, exists_exists_and_eq_and, decide_eq_true_eq, not_forall, not_not,
    exists_prop]

theorem buckets_firstUsages (c : Corpus) (config : Config) (router : Router) :
    buckets router (c.firstUsages config) =
      (c.keys config router).toList.map fun key => (key, c.transactionsOf config router key) :=
  buckets_eq router (c.firstUsages config)

/-- A batch for each part of the library whose bucket is kept. -/
theorem batches_prepare (c : Corpus) (config : Config) (router : Router) :
    (c.prepare config router).batches =
      ((c.keys config router).toList.filter fun key =>
        isKept config (key, c.transactionsOf config router key)).map fun key =>
          ⟨key, c.transactionsOf config router key⟩ := by
  rw [prepare, flatten_map_distinct, buckets_firstUsages]
  simp only [List.filter_map, List.map_map, Function.comp_def]

/-! ## Mentions -/

theorem mem_mentioned {parts : List String} {usages : List Usage} {part : String} :
    part ∈ mentioned parts usages ↔ part ∈ parts ∧ ∃ u ∈ usages, u.items.mentions part = true := by
  simp only [mentioned, List.mem_filter, List.any_eq_true, List.mem_flatMap, List.mem_map,
    ItemSet.mentions, Text.occursIn]
  constructor
  · rintro ⟨hpart, text, ⟨u, hu, item, hitem, rfl⟩, hoccurs⟩
    exact ⟨hpart, u, hu, item, hitem, hoccurs⟩
  · rintro ⟨hpart, u, hu, item, hitem, hoccurs⟩
    exact ⟨hpart, item.toList, ⟨u, hu, item, hitem, rfl⟩, hoccurs⟩

theorem mem_mentioned_firstUses {parts : List String} {usages : List Usage} {part : String}
    (h : part ∈ parts) :
    part ∈ mentioned parts (Usage.firstUses usages) ↔
      (usages.any (·.items.mentions part)) = true := by
  rw [mem_mentioned, List.any_eq_true]
  constructor
  · rintro ⟨-, u, hu, hmentions⟩
    obtain ⟨v, hv, heq⟩ :=
      List.mem_map.mp (Usage.mem_map_items_firstUses.mp (List.mem_map_of_mem hu))
    exact ⟨v, hv, heq.symm ▸ hmentions⟩
  · rintro ⟨u, hu, hmentions⟩
    obtain ⟨v, hv, heq⟩ :=
      List.mem_map.mp (Usage.mem_map_items_firstUses.mpr (List.mem_map_of_mem hu))
    exact ⟨h, v, hv, heq.symm ▸ hmentions⟩

/-! ## What a preparation is -/

/-- Batches and counts as the projects of a corpus determine them. -/
structure PreparedFrom (c : Corpus) (config : Config) (router : Router) (p : Prepared) : Prop where
  /-- Batches come in the order of their parts of the library, no part has two. -/
  ascending : p.batches.Pairwise (·.subApi < ·.subApi)
  /-- The mined parts are those that contain a configured one and have enough transactions, at least
  one. -/
  mem_batches : ∀ b, b ∈ p.batches ↔
    b.transactions = c.transactionsOf config router b.subApi ∧ b.transactions ≠ [] ∧
      config.minBucketTransactions ≤ b.transactions.length ∧
        ∃ part ∈ config.subApiPrefixes, Text.occursIn part b.subApi = true
  /-- Every transaction names the part in an item of the library. -/
  mentions : ∀ b ∈ p.batches, ∀ u ∈ b.transactions, ∃ item ∈ u.items,
    Text.occursIn b.subApi item = true ∧ Text.occursIn router.libraryText item = true
  projectsGiven : p.stats.projectsGiven = c.size
  projectsExcluded : p.stats.projectsExcluded = c.entries.countP (config.excludes ·.1)
  projectsSkipped : p.stats.projectsSkipped =
    c.entries.countP fun e => !config.excludes e.1 && e.2.length < config.minUsagesPerProject
  projectsUsed : p.stats.projectsUsed = (c.usedProjects config).length
  /-- Every project is excluded, skipped or used. -/
  projects : p.stats.projectsGiven =
    p.stats.projectsExcluded + p.stats.projectsSkipped + p.stats.projectsUsed
  totalUsages : p.stats.totalUsages = total ((c.usedProjects config).map (·.2.length))
  /-- A project counts as many unique usages as it has different item sets. -/
  uniqueUsages : p.stats.uniqueUsages =
    total ((c.usedProjects config).map fun e => (e.2.map (·.items)).toFinset.card)
  bucketsKept : p.stats.bucketsKept = p.batches.length
  /-- Every part of the library that a used project names is mined or dropped. -/
  buckets : p.stats.bucketsKept + p.stats.bucketsDropped =
    ((c.usedProjects config).flatMap fun e =>
      e.2.flatMap fun u => (router.keys u.items).toList).toFinset.card
  /-- The configured parts, each with the number of used projects that mention it. -/
  subApiProjects : ∀ part, p.stats.subApiProjects.get? part =
    if part ∈ config.subApiPrefixes then
      some ((c.usedProjects config).countP fun e => e.2.any (·.items.mentions part))
    else none

theorem isKept_iff {key : String} {transactions : List Usage} :
    isKept config (key, transactions) = true ↔
      config.minBucketTransactions ≤ transactions.length ∧
        ∃ part ∈ config.subApiPrefixes, Text.occursIn part key = true := by
  rw [isKept, Bool.and_eq_true, decide_eq_true_eq, List.any_eq_true]

theorem mem_batches_prepare {b : Batch} :
    b ∈ (c.prepare config router).batches ↔
      b.transactions = c.transactionsOf config router b.subApi ∧ b.transactions ≠ [] ∧
        config.minBucketTransactions ≤ b.transactions.length ∧
          ∃ part ∈ config.subApiPrefixes, Text.occursIn part b.subApi = true := by
  rw [batches_prepare, List.mem_map]
  constructor
  · rintro ⟨key, hkey, rfl⟩
    obtain ⟨hmem, hkept⟩ := List.mem_filter.mp hkey
    exact ⟨rfl, mem_keys_iff_transactionsOf_ne_nil.mp hmem, isKept_iff.mp hkept⟩
  · rintro ⟨htransactions, hne, hkept⟩
    rw [htransactions] at hne hkept
    refine ⟨b.subApi, List.mem_filter.mpr ⟨?_, isKept_iff.mpr hkept⟩, ?_⟩
    · exact mem_keys_iff_transactionsOf_ne_nil.mpr hne
    · rw [← htransactions]

theorem pairwise_subApi_prepare (c : Corpus) (config : Config) (router : Router) :
    (c.prepare config router).batches.Pairwise (·.subApi < ·.subApi) := by
  rw [batches_prepare]
  exact List.pairwise_map.mpr ((SortedSet.ascending _).filter _)

theorem exists_item_of_mem_transactionsOf {key : String} {u : Usage}
    (h : u ∈ c.transactionsOf config router key) :
    ∃ item ∈ u.items, Text.occursIn key item = true ∧
      Text.occursIn router.libraryText item = true := by
  exact Router.exists_item_of_mem_keys (of_decide_eq_true (List.mem_filter.mp h).2)

theorem bucketsKept_add_bucketsDropped (c : Corpus) (config : Config) (router : Router) :
    (c.prepare config router).stats.bucketsKept + (c.prepare config router).stats.bucketsDropped =
      ((c.usedProjects config).flatMap fun e =>
        e.2.flatMap fun u => (router.keys u.items).toList).toFinset.card := by
  have hkeys : (c.keys config router).toList.toFinset =
      ((c.usedProjects config).flatMap fun e =>
        e.2.flatMap fun u => (router.keys u.items).toList).toFinset := by
    ext key
    rw [List.mem_toFinset, List.mem_toFinset, SortedSet.mem_toList, mem_keys_iff_exists_usage]
    simp only [List.mem_flatMap, SortedSet.mem_toList]
  rw [← hkeys, List.toFinset_card_of_nodup (SortedSet.nodup_toList _), prepare]
  simp only [flatten_map_distinct, buckets_firstUsages]
  rw [Nat.add_sub_cancel' (List.length_filter_le ..), List.length_map]

theorem get?_subApiProjects (c : Corpus) (config : Config) (router : Router) (part : String) :
    (c.prepare config router).stats.subApiProjects.get? part =
      if part ∈ config.subApiPrefixes then
        some ((c.usedProjects config).countP fun e => e.2.any (·.items.mentions part))
      else none := by
  rw [prepare]
  simp only
  rw [SortedMap.get?_ofList_map]
  split
  · rename_i hpart
    rw [used_eq, List.map_map, List.map_map, List.countP_map]
    congr 1
    apply List.countP_congr
    intro e _
    simp only [Function.comp_apply, Usage.distinct_eq_firstUses, decide_eq_true_eq]
    exact mem_mentioned_firstUses hpart
  · rfl

/-- A preparation gives exactly the batches and the counts that the projects determine. -/
theorem preparedFrom_prepare (c : Corpus) (config : Config) (router : Router) :
    PreparedFrom c config router (c.prepare config router) where
  ascending := pairwise_subApi_prepare c config router
  mem_batches _ := mem_batches_prepare
  mentions b hb u hu := by
    rw [(mem_batches_prepare.mp hb).1] at hu
    exact exists_item_of_mem_transactionsOf hu
  projectsGiven := rfl
  projectsExcluded := by
    change c.size - (c.serious config).length = _
    rw [size_eq c config, Nat.add_sub_cancel]
  projectsSkipped := by
    change (c.serious config).length - (c.used config).length = _
    rw [length_serious, Nat.add_sub_cancel]
  projectsUsed := by
    change (c.used config).length = _
    rw [used_eq, List.length_map]
  projects := by
    change c.size = c.size - (c.serious config).length +
      ((c.serious config).length - (c.used config).length) + (c.used config).length
    have hsize := size_eq c config
    have hserious := length_serious c config
    omega
  totalUsages := by
    change total ((c.used config).map List.length) = _
    rw [used_eq, List.map_map]
    rfl
  uniqueUsages := by
    change total (((c.used config).map Usage.distinct).map List.length) = _
    rw [used_eq, List.map_map, List.map_map]
    simp only [Function.comp_def, Usage.distinct_eq_firstUses, Usage.length_firstUses]
  bucketsKept := by
    rw [prepare, List.length_map]
  buckets := bucketsKept_add_bucketsDropped c config router
  subApiProjects := get?_subApiProjects c config router

end Corpus

end UsageRules
