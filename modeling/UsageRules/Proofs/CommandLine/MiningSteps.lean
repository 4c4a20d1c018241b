import UsageRules.Proofs.CommandLine.Running

/-! The steps of a mining run. It mines what the files hold (`minedAt`), and then loads the history,
stores the rules and reports them (`runOn_mine_eq`, `runOn_storeMined_eq_ok_iff`). -/

namespace UsageRules.CommandLine

section
variable {α : Type} (transcript : Transcript) (t : FileTree)

/-- The usages that a file of the tree holds. -/
def usagesAt (t : FileTree) (path : String) : Except CommandError Corpus :=
  match t.textAt path with
  | .error e => .error (.usagesUnreadable path e)
  | .ok text => match (Json.parse? text).bind Corpus.ofJson with
    | some corpus => .ok corpus
    | none => .error (.usagesUnparsable path)

/-- The required parameters of the declarations in a file of the tree, or none without such a
file. -/
def requiredAt (t : FileTree) : Option String → Except CommandError RequiredParams
  | none => .ok ∅
  | some path => (documentAt (Json.asList Declaration.ofJson) t path).map .ofDeclarations

/-- The version that a mining run is for, and what it mines from the files of the tree. -/
def minedAt [PatternLanguage] (t : FileTree) (input : String) (declarations : Option String)
    (target : Target) : Except CommandError (String × MiningOutcome) := do
  let config ← configAt t target.config
  let config := { config with version := target.version config }
  let required ← requiredAt t declarations
  let corpus ← usagesAt t input
  let miner ← (Miner.make config required).mapError .config
  let outcome ← (miner.run corpus).mapError .rule
  return (config.version, outcome)

theorem runOn_loadUsages (path : String) :
    runOn (loadUsages path) transcript t = ((usagesAt t path, transcript), t) := by
  rw [loadUsages, runOn_bind, runOn_attempt, FileTree.run_readText, usagesAt]
  cases t.textAt path with
  | error e => rfl
  | ok text =>
    dsimp only [Except.mapError]
    rw [runOn_expect]
    cases (Json.parse? text).bind Corpus.ofJson <;> rfl

theorem usagesAt_eq_ok {path : String} {document : Json} {corpus : Corpus} {t : FileTree}
    (htext : t.textAt path = .ok document.compact) (hread : Corpus.ofJson document = some corpus) :
    usagesAt t path = .ok corpus := by
  rw [usagesAt, htext]
  dsimp only
  rw [Json.parse?_compact, Option.bind_some, hread]

theorem runOn_declarations (declarations : Option String)
    (rest : RequiredParams → Command (StateM FileTree) α) :
    runOn (match declarations with
      | none => do rest (← pure ∅)
      | some path => do rest (← loadRequired path)) transcript t =
      match requiredAt t declarations with
      | .ok required => runOn (rest required) transcript t
      | .error e => ((.error e, transcript), t) := by
  cases declarations with
  | none => rfl
  | some path =>
    refine (runOn_bind ..).trans ?_
    rw [loadRequired, runOn_bind, runOn_readDocument, requiredAt]
    cases documentAt (Json.asList Declaration.ofJson) t path <;> rfl

theorem minedAt_eq_ok_iff [PatternLanguage] {t : FileTree} {input version : String}
    {declarations : Option String} {target : Target} {outcome : MiningOutcome} :
    minedAt t input declarations target = .ok (version, outcome) ↔
      ∃ config required corpus miner, configAt t target.config = .ok config ∧
        version = target.version config ∧ requiredAt t declarations = .ok required ∧
        usagesAt t input = .ok corpus ∧ Miner.make { config with version } required = .ok miner ∧
        miner.run corpus = .ok outcome := by
  simp only [minedAt, bind_eq_ok_iff, mapError_eq_ok_iff]
  constructor
  · rintro ⟨config, hconfig, required, hrequired, corpus, husages, miner, hmake, _, hrun, heq⟩
    cases heq
    exact ⟨config, required, corpus, miner, hconfig, rfl, hrequired, husages, hmake, hrun⟩
  · rintro ⟨config, required, corpus, miner, hconfig, rfl, hrequired, husages, hmake, hrun⟩
    exact ⟨config, hconfig, required, hrequired, corpus, husages, miner, hmake, outcome, hrun, rfl⟩

/-- The end of a run: what was stored is reported, and summed up in a file. -/
def reportMined (colours : Bool) (summaryOut : Option String) (version rulesFile : String)
    (outcome : MiningOutcome) (records : List Record) (autoLabeled : Nat) :
    Command (StateM FileTree) Unit := do
  print (miningReport colours outcome.summary outcome.preparation records)
  printError [paint colours .boldGreen "wrote" ++ " " ++ paint colours .bold rulesFile]
  match summaryOut with
  | none => return
  | some path =>
    let time ← (FileHost.timeStamp : StateM FileTree String)
    let text := (runRecord time version rulesFile outcome autoLabeled).pretty
    attempt (FileHost.writeText path text) (.notWritten path)

/-- The part of a run in which files are made: what was mined is labelled and stored. -/
def storeMined (colours autoLabel : Bool) (summaryOut : Option String) (rulesDirectory : String)
    (version : String) (outcome : MiningOutcome) : Command (StateM FileTree) Unit := do
  attempt (FileHost.makeDirectories rulesDirectory) (.notCreated rulesDirectory)
  let history ← onRules (History.load rulesDirectory)
  let (records, autoLabeled) := recordsOf history outcome.rules version autoLabel
  let rulesFile ← onRules (RuleFile.write rulesDirectory version records)
  reportMined colours summaryOut version rulesFile outcome records autoLabeled

end

section
variable {colours autoLabel : Bool} {input : String} {declarations summaryOut : Option String}
  {target : Target} {transcript transcript' : Transcript} {t t' : FileTree}

/-- Nothing is stored unless something is mined from the files. That a run has begun is told as soon
as there is a configuration. -/
theorem runOn_mine_eq [PatternLanguage] :
    runOn (mine colours input declarations autoLabel summaryOut target) transcript t =
      let announced := { transcript with
        out := transcript.out ++ [paint colours .boldGreen "Mining" ++ " " ++ input] }
      match minedAt t input declarations target with
      | .error e => ((.error e,
          if (configAt t target.config).isOk then announced else transcript), t)
      | .ok (version, outcome) =>
        runOn (storeMined colours autoLabel summaryOut target.rulesDirectory version outcome)
          announced t := by
  rw [mine, runOn_bind, runOn_loadConfig, minedAt]
  cases configAt t target.config with
  | error e => rfl
  | ok config =>
    refine (runOn_bind ..).trans ?_
    rw [runOn_print]
    refine (runOn_declarations ..).trans ?_
    dsimp only [bind, Except.bind]
    cases requiredAt t declarations with
    | error e => rfl
    | ok required =>
      refine (runOn_bind ..).trans ?_
      rw [runOn_loadUsages]
      dsimp only
      cases usagesAt t input with
      | error e => rfl
      | ok corpus =>
        refine (runOn_bind ..).trans ?_
        rw [runOn_check]
        dsimp only
        cases Miner.make { config with version := target.version config } required with
        | error e => rfl
        | ok miner =>
          refine (runOn_bind ..).trans ?_
          rw [runOn_check]
          dsimp only [Except.mapError]
          cases miner.run corpus <;> rfl

theorem runOn_storeMined_eq_ok_iff {rulesDirectory version : String} {outcome : MiningOutcome} :
    runOn (storeMined colours autoLabel summaryOut rulesDirectory version outcome) transcript t =
        ((.ok (), transcript'), t') ↔
      ∃ made history path stored,
        (FileHost.makeDirectories rulesDirectory : StateM FileTree _).run t = (.ok (), made) ∧
        (History.load rulesDirectory : RuleFile.OnTree History).run.run made =
          (.ok history, made) ∧
        (RuleFile.write rulesDirectory version
          (recordsOf history outcome.rules version autoLabel).1 :
            RuleFile.OnTree String).run.run made = (.ok path, stored) ∧
        runOn (reportMined colours summaryOut version path outcome
          (recordsOf history outcome.rules version autoLabel).1
          (recordsOf history outcome.rules version autoLabel).2) transcript stored =
            ((.ok (), transcript'), t') := by
  simp only [storeMined, runOn_bind_eq_ok_iff, runOn_attempt_eq_ok_iff, runOn_onRules_eq_ok_iff]
  constructor
  · rintro ⟨_, _, made, ⟨hmade, rfl⟩, history, _, loaded, ⟨hload, rfl⟩, path, _, stored,
      ⟨hwrite, rfl⟩, hreport⟩
    obtain rfl : made = loaded := by
      rw [RuleFile.run_load] at hload
      exact congrArg Prod.snd hload
    exact ⟨made, history, path, stored, hmade, hload, hwrite, hreport⟩
  · rintro ⟨made, history, path, stored, hmade, hload, hwrite, hreport⟩
    exact ⟨_, _, made, ⟨hmade, rfl⟩, history, _, _, ⟨hload, rfl⟩, path, _, stored, ⟨hwrite, rfl⟩,
      hreport⟩

/-- The report is printed after what was printed before, with the summary or without it. -/
theorem out_eq_of_reportMined {version path : String} {outcome : MiningOutcome}
    {records : List Record} {autoLabeled : Nat}
    (h : runOn (reportMined colours summaryOut version path outcome records autoLabeled) transcript
      t = ((.ok (), transcript'), t')) :
    transcript'.out =
      transcript.out ++ miningReport colours outcome.summary outcome.preparation records := by
  unfold reportMined at h
  rw [runOn_bind, runOn_print] at h
  dsimp only at h
  rw [runOn_bind, runOn_printError] at h
  cases summaryOut with
  | none =>
    cases h
    rfl
  | some path =>
    obtain ⟨time, _, _, htime, h⟩ := runOn_bind_eq_ok_iff.mp h
    cases htime
    obtain ⟨-, rfl⟩ := runOn_attempt_eq_ok_iff.mp h
    rfl

end

end UsageRules.CommandLine
