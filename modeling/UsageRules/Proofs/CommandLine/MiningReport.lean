import UsageRules.Proofs.CommandLine.MiningSteps
import UsageRules.Proofs.Convention.Labelling
import UsageRules.Proofs.History.Sightings
import UsageRules.Proofs.Mining.Filters

/-! What a mining run reports of earlier versions. Records are counted after the automatic labels
are given, so the rules that are labelled only then are counted with those of which the label was
carried over (`CommandLine.report_of_mine`). -/

namespace UsageRules

theorem Record.items_ofRule (r : Rule) : (Record.ofRule r).items = r.allItems := by
  refine SortedSet.ext fun item => ?_
  simp [Record.ofRule, Record.items, Rule.allItems, or_comm]

namespace CommandLine

/-! ## Labels -/

/-- The rules with a known label in the history. -/
def carriedCount (h : History) (rules : List Rule) : Nat :=
  rules.countP fun r => !(h.labelOf r.id).isUnknown

/-- The rule has more than two items, and all those of a known convention. -/
def ExtendsKnown (r : Rule) : Prop := 2 < r.allItems.size ∧ ∃ p ∈ Convention.known, p ⊆ r.allItems

instance (r : Rule) : Decidable (ExtendsKnown r) :=
  inferInstanceAs (Decidable (2 < r.allItems.size ∧ ∃ p ∈ Convention.known, p ⊆ r.allItems))

/-- The rules without a known label in the history that extend a known convention. -/
def extendedCount (h : History) (rules : List Rule) : Nat :=
  rules.countP fun r => decide (h.labelOf r.id = .unknown ∧ ExtendsKnown r)

theorem labeledCount_add_unknown (records : List Record) :
    labeledCount records + records.countP (·.label.isUnknown) = records.length := by
  have hlength := List.length_eq_countP_add_countP (fun r : Record => r.label.isUnknown)
    (l := records)
  simp only [labeledCount, Bool.not_eq_true, Bool.decide_eq_false] at *
  omega

/-- The automatic labels are counted with those that were there. -/
theorem labeledCount_autoLabel (patterns : List ItemSet) (records : List Record) :
    labeledCount (Record.autoLabel patterns records) =
      labeledCount records + Record.autoLabelCount patterns records := by
  have hbefore := labeledCount_add_unknown records
  have hafter := labeledCount_add_unknown (Record.autoLabel patterns records)
  have hunknown := Record.autoLabelCount_add_unknown patterns records
  have hlength : (Record.autoLabel patterns records).length = records.length := List.length_map ..
  omega

theorem labeledCount_recordsOf (h : History) (rules : List Rule) (version : String)
    (autoLabel : Bool) :
    labeledCount (recordsOf h rules version autoLabel).1 =
      carriedCount h rules + if autoLabel then extendedCount h rules else 0 := by
  have hcarried : labeledCount ((h.annotate rules version).map Record.ofRule) =
      carriedCount h rules := by
    rw [History.annotate_eq, labeledCount, List.map_map, List.countP_map]
    rfl
  have hextended : Record.autoLabelCount Convention.known
      ((h.annotate rules version).map Record.ofRule) = extendedCount h rules := by
    rw [History.annotate_eq, Record.autoLabelCount, List.map_map, List.countP_map, extendedCount]
    refine List.countP_congr fun r _ => ?_
    simp only [Function.comp_apply, Record.extendsPattern_iff, Record.items_ofRule,
      decide_eq_true_eq]
    rfl
  cases autoLabel with
  | false => exact hcarried
  | true => rw [← hcarried, if_pos rfl, ← hextended]; exact labeledCount_autoLabel _ _

/-! ## Reports -/

/-- The line that tells how many rules were labelled in earlier versions, unless there are none. -/
def labeledLines (colours : Bool) (count : Nat) : List String :=
  if 0 < count then
    ["  " ++ paint colours .yellow "→" ++ " " ++ number count ++
      " rule(s) already labeled in earlier versions"]
  else []

theorem miningReport_eq (colours : Bool) (summary : MiningSummary) (preparation : PreparationStats)
    (records : List Record) :
    miningReport colours summary preparation records =
      miningReport colours summary preparation [] ++
        labeledLines colours (labeledCount records) := by
  simp [miningReport, labeledLines, labeledCount]

/-! ## Runs -/

/-- A run that succeeds reports as labelled in earlier versions the mined rules with a known label
in the history that it loads and, if it gives automatic labels, also the mined rules without a known
label there that extend a known convention. -/
theorem report_of_mine [PatternLanguage] {colours autoLabel : Bool} {input : String}
    {declarations summaryOut : Option String} {target : Target}
    {transcript transcript' : Transcript} {t t' : FileTree}
    (h : runOn (mine colours input declarations autoLabel summaryOut target) transcript t =
      ((.ok (), transcript'), t')) :
    ∃ version outcome made history,
      minedAt t input declarations target = .ok (version, outcome) ∧
      (FileHost.makeDirectories target.rulesDirectory : StateM FileTree _).run t =
        (.ok (), made) ∧
      (History.load target.rulesDirectory : RuleFile.OnTree History).run.run made =
        (.ok history, made) ∧
      transcript'.out = transcript.out ++
        [paint colours .boldGreen "Mining" ++ " " ++ input] ++
        miningReport colours outcome.summary outcome.preparation [] ++
        labeledLines colours (carriedCount history outcome.rules +
          if autoLabel then extendedCount history outcome.rules else 0) := by
  rw [runOn_mine_eq] at h
  cases hmined : minedAt t input declarations target with
  | error e =>
    rw [hmined] at h
    cases h
  | ok mined =>
    obtain ⟨version, outcome⟩ := mined
    rw [hmined] at h
    obtain ⟨made, history, path, stored, hmade, hload, -, hreport⟩ :=
      runOn_storeMined_eq_ok_iff.mp h
    refine ⟨version, outcome, made, history, rfl, hmade, hload, ?_⟩
    rw [out_eq_of_reportMined hreport, miningReport_eq, labeledCount_recordsOf, List.append_assoc]
    simp only [List.append_assoc]

end CommandLine

/-! ## A run that labels -/

namespace Miner

variable {b : Batch} {items : ItemSet}

/-- If all transactions are equal, only their items are left. -/
theorem exists_maximalSets_eq_singleton {config : Config} {required : RequiredParams}
    (hsupport : 0 < config.minSupport) (hequal : ∀ t ∈ b.itemSets, t = items)
    (hcandidate : Candidate config required b items) (hstrip : items.strip required = items) :
    ∃ f, maximalSets (survivors config required [b]) = [f] ∧ f.items = items := by
  have hsub : ∀ candidate, Candidate config required b candidate → candidate ⊆ items := by
    intro candidate hfrequent
    obtain ⟨t, ht, hcontains⟩ :=
      List.countP_pos_iff.mp (Nat.lt_of_lt_of_le hsupport hfrequent.frequent)
    exact hequal t ht ▸ of_decide_eq_true hcontains
  have hitems : ∀ f ∈ maximalSets (survivors config required [b]), f.items = items := by
    intro f hf
    obtain ⟨hleft, -⟩ := (mem_maximalSets_survivors hsupport).mp hf
    obtain ⟨b', hb', candidate, hcandidate', heq, -⟩ := hleft.greatest.1
    cases List.mem_singleton.mp hb'
    refine (hleft.maximal items _ ⟨b, hb', items, hcandidate, hstrip, rfl⟩ fun a ha => ?_).symm
    exact hsub candidate hcandidate' a (ItemSet.mem_strip.mp (heq ▸ ha)).1
  have hleft := hcandidate.leavesMaximal hsupport fun t ht _ =>
    hequal t ht ▸ SortedSet.subset_refl _
  have hmem := (mem_maximalSets_survivors hsupport
    (f := { items := _, frequency := _ })).mpr ⟨hleft, rfl, rfl⟩
  have hdistinct := nodup_items_maximalSets (survivors config required [b])
  rw [List.eq_replicate_iff.mpr ⟨List.length_map .., List.forall_mem_map.mpr hitems⟩,
    List.nodup_replicate] at hdistinct
  obtain ⟨f, hf⟩ :=
    List.length_eq_one_iff.mp (Nat.le_antisymm hdistinct (List.length_pos_of_mem hmem))
  exact ⟨f, hf, hitems f (hf ▸ List.mem_cons_self)⟩

theorem exists_rules_eq_singleton {m : Miner} {corpus : Corpus}
    (hsupport : 0 < m.config.minSupport) (hbatches : m.batches corpus = [b])
    (hequal : ∀ t ∈ b.itemSets, t = items) (hcandidate : Candidate m.config m.required b items)
    (hstrip : items.strip m.required = items) :
    ∃ outcome r, m.run corpus = .ok outcome ∧ outcome.rules = [r] ∧ r.allItems = items := by
  obtain ⟨results, rules, outcome, hrun, -, hselected, -, hrules⟩ := exists_run m corpus
  obtain ⟨f, hsets, hitems⟩ := exists_maximalSets_eq_singleton hsupport hequal hcandidate hstrip
  rw [hbatches, hsets] at hselected
  obtain ⟨r, rest, ⟨hlarge, hselect⟩, hrest, rfl⟩ := List.forall₂_cons_left_iff.mp hselected
  cases hrest
  obtain ⟨r', hselect', hover, -⟩ := exists_selectRule (results.flatMap (·.rules)) hlarge
  cases hselect.symm.trans hselect'
  exact ⟨outcome, _, hrun, hrules, hover.trans hitems⟩

end Miner

namespace CommandLine

/-- A field that is configured and injected, of the type of texts. -/
def configuredField : ItemSet := .ofList [
  Convention.fact "Field" .annotatedWith
    "Annotation_org.eclipse.microprofile.config.inject.ConfigProperty",
  Convention.fact "Field" .annotatedWith "Annotation_javax.inject.Inject",
  Convention.fact "Field" .hasType "java.lang.String"]

/-- Ten projects with such a field. -/
def configuredUsages : Json := .ofFields ((List.range 10).map fun i =>
  ("p" ++ number i, .array [.ofFields [("items", .ofStrings configuredField.toList)]]))

/-- A directory with a file of usages and no rules. -/
def usageTree (bytes : ByteArray) : FileTree := FileTree.empty.put ["u.json"] (.file bytes)

theorem run_makeDirectories_usageTree (bytes : ByteArray) :
    (FileHost.makeDirectories "." : StateM FileTree _).run (usageTree bytes) =
      (.ok (), usageTree bytes) := by
  rfl

theorem historyAt_usageTree (bytes : ByteArray) :
    RuleFile.historyAt (usageTree bytes) "." = .ok ⟨∅⟩ := by
  rfl

theorem exists_write_usageTree (bytes bytes' : ByteArray) :
    ∃ stored, (usageTree bytes).write "./rules_v1.json" bytes' = .ok stored := by
  exact ⟨_, rfl⟩

/-- A directory with the usages of the ten projects. -/
def configuredTree : FileTree := usageTree configuredUsages.compact.toUTF8

theorem textAt_configuredTree :
    configuredTree.textAt "u.json" = .ok configuredUsages.compact := by
  have hread (bytes : ByteArray) : (usageTree bytes).read "u.json" = .ok bytes := rfl
  rw [configuredTree]
  exact FileTree.textAt_eq_ok_iff.mpr (hread _)

/-- The settings of a run for a version, without a file of settings. -/
def settings : Config := { version := "v1" }

/-- All projects are in one batch. -/
theorem exists_batch_configuredUsages : ∃ corpus m b,
    Corpus.ofJson configuredUsages = some corpus ∧ Miner.make settings ∅ = .ok m ∧
      m.config = settings ∧ m.required = ∅ ∧ m.batches corpus = [b] ∧
      b.subApi = "org.eclipse.microprofile.config" ∧
      b.itemSets = List.replicate 10 configuredField := by
  have h : (Corpus.ofJson configuredUsages).bind (fun corpus =>
      (Miner.make settings ∅).toOption.map fun m =>
        (m.batches corpus).map fun b => (b.subApi, b.itemSets)) =
      some [("org.eclipse.microprofile.config", List.replicate 10 configuredField)] := by
    decide +kernel
  obtain ⟨corpus, hcorpus, hbatches⟩ := Option.bind_eq_some_iff.mp h
  obtain ⟨m, b, hmined⟩ := Miner.exists_batches_eq_singleton hbatches
  exact ⟨corpus, m, b, hcorpus, hmined⟩

theorem candidate_configuredField {b : Batch}
    (hsubApi : b.subApi = "org.eclipse.microprofile.config")
    (hitemSets : b.itemSets = List.replicate 10 configuredField) :
    Miner.Candidate settings ∅ b configuredField ∧ configuredField.strip ∅ = configuredField := by
  have h : configuredField.isEmpty = false ∧
      10 ≤ supportIn (List.replicate 10 configuredField) configuredField ∧
      configuredField.mentions "org.eclipse.microprofile.config" = true ∧
      configuredField.mentionsAny settings.targetPrefixes = true ∧
      configuredField.isMeaningful = true ∧ 2 ≤ (configuredField.strip ∅).size ∧
      configuredField.strip ∅ = configuredField := by
    decide +kernel
  obtain ⟨hne, hfrequent, hsub, htarget, hmeaningful, hlarge, hstrip⟩ := h
  exact ⟨⟨hne, hitemSets ▸ hfrequent, hsubApi ▸ hsub, htarget, hmeaningful, hlarge⟩, hstrip⟩

theorem exists_minedAt_configuredTree : ∃ outcome r,
    minedAt configuredTree "u.json" none { tag := some "v1" } = .ok ("v1", outcome) ∧
      outcome.rules = [r] ∧ r.allItems = configuredField := by
  obtain ⟨corpus, m, b, hcorpus, hmake, hconfig, hrequired, hbatch, hsubApi, hitemSets⟩ :=
    exists_batch_configuredUsages
  obtain ⟨hcandidate, hstrip⟩ := candidate_configuredField hsubApi hitemSets
  rw [← hconfig, ← hrequired] at hcandidate
  rw [← hrequired] at hstrip
  obtain ⟨outcome, r, hrun, hrules, hitems⟩ := Miner.exists_rules_eq_singleton
    (Miner.minSupport_pos_of_make hmake) hbatch
    (hitemSets ▸ fun t ht => List.eq_of_mem_replicate ht) hcandidate hstrip
  exact ⟨outcome, r, minedAt_eq_ok_iff.mpr ⟨{}, ∅, corpus, m, rfl, rfl, rfl,
    usagesAt_eq_ok textAt_configuredTree hcorpus, hmake, hrun⟩, hrules, hitems⟩

theorem carriedCount_empty (rules : List Rule) : carriedCount ⟨∅⟩ rules = 0 := by
  have hkeys : (∅ : SortedMap String (List Record)).keys.toList = [] := rfl
  simp [carriedCount, History.labelOf, History.sightings, History.ordered, History.tags, hkeys,
    Sighting.label?, Label.isUnknown]

/-- The run succeeds with one rule, and with a history that has none. -/
theorem exists_mine_configuredTree (autoLabel : Bool) : ∃ outcome r t',
    minedAt configuredTree "u.json" none { tag := some "v1" } = .ok ("v1", outcome) ∧
    outcome.rules = [r] ∧ r.allItems = configuredField ∧
    (History.load "." : RuleFile.OnTree History).run.run configuredTree =
      (.ok ⟨∅⟩, configuredTree) ∧
    runOn (mine false "u.json" none autoLabel none { tag := some "v1" }) {} configuredTree =
      ((.ok (), {
        out := "Mining u.json" :: miningReport false outcome.summary outcome.preparation
          (recordsOf ⟨∅⟩ outcome.rules "v1" autoLabel).1
        err := ["wrote ./rules_v1.json"] }), t') := by
  obtain ⟨outcome, r, hmined, hrules, hitems⟩ := exists_minedAt_configuredTree
  have hload : (History.load "." : RuleFile.OnTree History).run.run configuredTree =
      (.ok ⟨∅⟩, configuredTree) := by
    rw [RuleFile.run_load, configuredTree, historyAt_usageTree]
  have hname : RuleFile.nameOf "v1" = .ok "rules_v1.json" := by decide +kernel
  have hpath : Path.join "." "rules_v1.json" = "./rules_v1.json" := by decide +kernel
  obtain ⟨stored, hstored⟩ := exists_write_usageTree configuredUsages.compact.toUTF8
    (RuleFile.textOf (recordsOf ⟨∅⟩ outcome.rules "v1" autoLabel).1).toUTF8
  have hwrite : (RuleFile.write "." "v1" (recordsOf ⟨∅⟩ outcome.rules "v1" autoLabel).1 :
      RuleFile.OnTree String).run.run configuredTree = (.ok "./rules_v1.json", stored) := by
    rw [RuleFile.run_write hname, FileTree.run_writeText, hpath, configuredTree, hstored]
  refine ⟨outcome, r, stored, hmined, hrules, hitems, hload, ?_⟩
  rw [runOn_mine_eq, hmined]
  exact runOn_storeMined_eq_ok_iff.mpr ⟨configuredTree, ⟨∅⟩, "./rules_v1.json", stored,
    run_makeDirectories_usageTree _, hload, hwrite, rfl⟩

/-- The first two facts are a known convention. -/
theorem configuredPair_mem :
    [Convention.fact "Field" .annotatedWith
        "Annotation_org.eclipse.microprofile.config.inject.ConfigProperty",
      Convention.fact "Field" .annotatedWith "Annotation_javax.inject.Inject"] ∈
        Convention.knownPairs := by
  simp [Convention.knownPairs]

/-- A rule that no version has is reported as labelled in earlier versions. -/
theorem report_of_configuredTree : ∃ outcome history transcript t',
    minedAt configuredTree "u.json" none { tag := some "v1" } = .ok ("v1", outcome) ∧
    (History.load "." : RuleFile.OnTree History).run.run configuredTree =
      (.ok history, configuredTree) ∧
    carriedCount history outcome.rules = 0 ∧
    runOn (mine false "u.json" none true none { tag := some "v1" }) {} configuredTree =
      ((.ok (), transcript), t') ∧
    transcript.out = "Mining u.json" ::
      (miningReport false outcome.summary outcome.preparation [] ++
        ["  → 1 rule(s) already labeled in earlier versions"]) := by
  obtain ⟨outcome, r, t', hmined, hrules, hitems, hload, hrun⟩ := exists_mine_configuredTree true
  have hunknown : (⟨∅⟩ : History).labelOf r.id = .unknown := by
    simpa [carriedCount, Label.isUnknown] using carriedCount_empty [r]
  have hextends : ExtendsKnown r := by
    rw [ExtendsKnown, hitems]
    exact ⟨by decide +kernel, _, List.mem_map_of_mem configuredPair_mem, by decide +kernel⟩
  have hextended : extendedCount ⟨∅⟩ outcome.rules = 1 := by
    simp [extendedCount, hrules, hunknown, hextends]
  refine ⟨outcome, ⟨∅⟩, _, t', hmined, hload, carriedCount_empty _, hrun, ?_⟩
  have hline : labeledLines false 1 = ["  → 1 rule(s) already labeled in earlier versions"] := by
    decide +kernel
  dsimp only
  rw [miningReport_eq, labeledCount_recordsOf, carriedCount_empty, if_pos rfl, hextended, hline]

/-- Without automatic labels there is nothing to report. -/
theorem report_of_configuredTree_unlabelled : ∃ outcome transcript t',
    minedAt configuredTree "u.json" none { tag := some "v1" } = .ok ("v1", outcome) ∧
    runOn (mine false "u.json" none false none { tag := some "v1" }) {} configuredTree =
      ((.ok (), transcript), t') ∧
    transcript.out =
      "Mining u.json" :: miningReport false outcome.summary outcome.preparation [] := by
  obtain ⟨outcome, r, t', hmined, -, -, hload, hrun⟩ := exists_mine_configuredTree false
  refine ⟨outcome, _, t', hmined, hrun, ?_⟩
  obtain ⟨version, outcome', made, history, hmined', hmade, hload', hout⟩ := report_of_mine hrun
  cases hmined.symm.trans hmined'
  obtain rfl : configuredTree = made :=
    congrArg Prod.snd ((run_makeDirectories_usageTree _).symm.trans hmade)
  obtain rfl : ⟨∅⟩ = history :=
    Except.ok.inj (congrArg Prod.fst (hload.symm.trans hload'))
  rw [hout, carriedCount_empty]
  exact List.append_nil _

end CommandLine

end UsageRules
