import UsageRules.Proofs.CommandLine.Labelling

/-! Failed commands. What a mining run reads and what it makes before it writes its rules keeps all
files, so a failure leaves them as they were, unless just the summary could not be written
(`CommandLine.files_of_failure`). -/

namespace UsageRules.CommandLine

open FileTree (SameFiles)

variable {α β : Type}

/-! ## Steps that keep the files -/

/-- A command that keeps all files and makes none, whether it succeeds or not. -/
def KeepsFiles (x : Command (StateM FileTree) α) : Prop :=
  ∀ transcript t, SameFiles t (runOn x transcript t).2

namespace KeepsFiles

theorem of_tree_eq {x : Command (StateM FileTree) α}
    (h : ∀ transcript t, (runOn x transcript t).2 = t) : KeepsFiles x := by
  intro transcript t
  rw [h]
  exact .refl t

theorem pure (a : α) : KeepsFiles (Pure.pure a) := of_tree_eq fun _ _ => rfl

theorem bind {x : Command (StateM FileTree) α} {next : α → Command (StateM FileTree) β}
    (h : KeepsFiles x) (hnext : ∀ a, KeepsFiles (next a)) : KeepsFiles (x >>= next) := by
  intro transcript t
  have hfirst := h transcript t
  rw [runOn_bind]
  split
  · rename_i heq
    rw [heq] at hfirst
    exact hfirst.trans (hnext ..)
  · rename_i heq
    rwa [heq] at hfirst

theorem print (lines : List String) : KeepsFiles (CommandLine.print lines) :=
  of_tree_eq fun _ _ => rfl

theorem attempt {x : StateM FileTree (Except FileError α)} (h : FileTree.KeepsFiles x)
    (asError : FileError → CommandError) : KeepsFiles (CommandLine.attempt x asError) := by
  intro transcript t
  rw [runOn_attempt]
  exact h t

theorem expect (x : Option α) (e : CommandError) : KeepsFiles (CommandLine.expect x e) :=
  of_tree_eq fun _ _ => by rw [runOn_expect]

theorem check {ε : Type} (x : Except ε α) (asError : ε → CommandError) :
    KeepsFiles (CommandLine.check x asError) := of_tree_eq fun _ _ => by rw [runOn_check]

theorem loadConfig [PatternLanguage] (path : Option String) :
    KeepsFiles (CommandLine.loadConfig path) :=
  of_tree_eq fun _ _ => by rw [runOn_loadConfig]

theorem loadRequired (path : String) : KeepsFiles (CommandLine.loadRequired path) :=
  bind (of_tree_eq fun _ _ => by rw [runOn_readDocument]) fun _ => pure _

theorem loadUsages (path : String) : KeepsFiles (CommandLine.loadUsages path) :=
  bind (of_tree_eq fun _ _ => by rw [runOn_attempt, FileTree.run_readText]) fun _ => expect _ _

theorem loadHistory (directory : String) : KeepsFiles (onRules (History.load directory)) :=
  of_tree_eq fun _ _ => by rw [runOn_onRules, RuleFile.run_load]

end KeepsFiles

/-! ## Mining -/

/-- How a failed mining run leaves the files: as they were, or with the rules written and without
the summary. -/
inductive MiningFailure (rulesDirectory : String) (summaryOut : Option String) (t t' : FileTree) :
    CommandError → Prop where
  | kept {e : CommandError} (hkept : SameFiles t t') :
      MiningFailure rulesDirectory summaryOut t t' e
  | written {out : String} {cause : FileError} {made : FileTree} {version path : String}
      {records : List Record} (hout : summaryOut = some out) (hkept : SameFiles t made)
      (hwrite : (RuleFile.write rulesDirectory version records :
        RuleFile.OnTree String).run.run made = (.ok path, t')) :
      MiningFailure rulesDirectory summaryOut t t' (.notWritten out cause)

section
variable {rulesDirectory : String} {summaryOut : Option String}

theorem MiningFailure.of_sameFiles {t t₁ t' : FileTree} {e : CommandError} (h : SameFiles t t₁)
    (hfailure : MiningFailure rulesDirectory summaryOut t₁ t' e) :
    MiningFailure rulesDirectory summaryOut t t' e := by
  cases hfailure with
  | kept hkept => exact .kept (h.trans hkept)
  | written hout hkept hwrite => exact .written hout (h.trans hkept) hwrite

/-- A part of a mining run that fails in no other way. -/
def FailsAsMining (rulesDirectory : String) (summaryOut : Option String)
    (x : Command (StateM FileTree) α) : Prop :=
  ∀ transcript t e transcript' t', runOn x transcript t = ((.error e, transcript'), t') →
    MiningFailure rulesDirectory summaryOut t t' e

theorem FailsAsMining.bind {x : Command (StateM FileTree) α}
    {next : α → Command (StateM FileTree) β} (hx : KeepsFiles x)
    (hnext : ∀ a, FailsAsMining rulesDirectory summaryOut (next a)) :
    FailsAsMining rulesDirectory summaryOut (x >>= next) := by
  intro transcript t e transcript' t' h
  have hfirst := hx transcript t
  rw [runOn_bind] at h
  split at h
  · rename_i heq
    rw [heq] at hfirst
    exact (hnext _ _ _ _ _ _ h).of_sameFiles hfirst
  · rename_i heq
    rw [heq] at hfirst
    cases h
    exact .kept hfirst

theorem FailsAsMining.of_declarations {declarations : Option String}
    {rest : RequiredParams → Command (StateM FileTree) α}
    (hrest : ∀ required, FailsAsMining rulesDirectory summaryOut (rest required)) :
    FailsAsMining rulesDirectory summaryOut (match declarations with
      | none => do rest (← pure ∅)
      | some path => do rest (← loadRequired path)) := by
  cases declarations with
  | none => exact .bind (.pure _) hrest
  | some path => exact .bind (.loadRequired path) hrest

/-- After the rules are written only the summary can still be missing. -/
theorem exists_of_summary_failure {lines lines' : List String} {text : String → String}
    {transcript transcript' : Transcript} {t t' : FileTree} {e : CommandError}
    (h : runOn (do
      print lines
      printError lines'
      match summaryOut with
      | none => return
      | some path =>
        let time ← (FileHost.timeStamp : StateM FileTree String)
        attempt (FileHost.writeText path (text time)) (.notWritten path)) transcript t =
          ((.error e, transcript'), t')) :
    t' = t ∧ ∃ out cause, summaryOut = some out ∧ e = .notWritten out cause := by
  rw [runOn_bind, runOn_print] at h
  dsimp only at h
  rw [runOn_bind, runOn_printError] at h
  cases summaryOut with
  | none => cases h
  | some path =>
    dsimp only at h
    rw [runOn_bind, runOn_liftM] at h
    dsimp only at h
    rw [runOn_attempt, FileTree.run_writeText] at h
    split at h
    · cases h
    · cases h
      exact ⟨rfl, path, _, rfl, rfl⟩

theorem failsAsMining_write {version : String} {records : List Record}
    {rest : String → Command (StateM FileTree) α}
    (hrest : ∀ {path transcript t e transcript' t'},
      runOn (rest path) transcript t = ((.error e, transcript'), t') →
        t' = t ∧ ∃ out cause, summaryOut = some out ∧ e = .notWritten out cause) :
    FailsAsMining rulesDirectory summaryOut
      (onRules (RuleFile.write rulesDirectory version records) >>= rest) := by
  intro transcript t e transcript' t' h
  rw [runOn_bind, runOn_onRules] at h
  generalize hwrite : (RuleFile.write rulesDirectory version records :
    RuleFile.OnTree String).run.run t = outcome at h
  obtain ⟨result, after⟩ := outcome
  cases result with
  | error e =>
    cases h
    exact .kept (RuleFile.tree_eq_of_write_eq_error hwrite ▸ .refl t)
  | ok path =>
    obtain ⟨rfl, out, cause, hout, rfl⟩ := hrest h
    exact .written hout (.refl t) hwrite

theorem failsAsMining_mine [PatternLanguage] (colours : Bool) (input : String)
    (declarations : Option String) (autoLabel : Bool) (summaryOut : Option String)
    (target : Target) :
    FailsAsMining target.rulesDirectory summaryOut
      (mine colours input declarations autoLabel summaryOut target) := by
  unfold mine
  refine .bind (.loadConfig _) fun config => .bind (.print _) fun _ => ?_
  refine .of_declarations fun required => ?_
  refine .bind (.loadUsages _) fun corpus => .bind (.check _ _) fun miner =>
    .bind (.check _ _) fun outcome => ?_
  refine .bind (.attempt (FileTree.keepsFiles_makeDirectories _) _) fun _ =>
    .bind (.loadHistory _) fun history => ?_
  exact failsAsMining_write exists_of_summary_failure

end

/-! ## Failures -/

theorem tree_eq_of_label_failure [PatternLanguage] {colours : Bool} {target : Target}
    {transcript transcript' : Transcript} {t t' : FileTree} {e : CommandError}
    (h : runOn (label colours target) transcript t = ((.error e, transcript'), t')) : t' = t := by
  cases htarget : targetAt t target with
  | error e' =>
    rw [runOn_label_eq, htarget] at h
    cases h
    rfl
  | ok stored =>
    obtain ⟨version, path, records⟩ := stored
    obtain ⟨written, -, hrun⟩ := runOn_label htarget
    rw [hrun] at h
    cases h

/-- If labelling fails nothing has changed. If mining fails all files are as they were, unless it
was the summary that could not be written; then the rules have been written. -/
theorem files_of_failure [PatternLanguage] (colours : Bool) (target : Target)
    (transcript transcript' : Transcript) (t t' : FileTree) (e : CommandError) :
    (runOn (label colours target) transcript t = ((.error e, transcript'), t') → t' = t) ∧
    ∀ input declarations autoLabel summaryOut,
      runOn (mine colours input declarations autoLabel summaryOut target) transcript t =
        ((.error e, transcript'), t') →
      MiningFailure target.rulesDirectory summaryOut t t' e ∧
      ((∀ out cause, summaryOut = some out → e ≠ .notWritten out cause) →
        SameFiles t t' ∧ ∀ path bytes, t.read path = .ok bytes → t'.read path = .ok bytes) := by
  refine ⟨tree_eq_of_label_failure, fun input declarations autoLabel summaryOut h => ?_⟩
  have hfailure := failsAsMining_mine colours input declarations autoLabel summaryOut target
    transcript t e transcript' t' h
  refine ⟨hfailure, fun hother => ?_⟩
  cases hfailure with
  | kept hkept => exact ⟨hkept, fun path bytes => hkept.read_eq_ok⟩
  | written hout => exact absurd rfl (hother _ _ hout)

theorem exists_eq_error {outcome : (Except CommandError α × Transcript) × FileTree}
    (h : outcome.1.1.isOk = false) :
    ∃ e transcript t, outcome = ((.error e, transcript), t) := by
  obtain ⟨⟨result, transcript⟩, t⟩ := outcome
  cases result with
  | error e => exact ⟨e, transcript, t, rfl⟩
  | ok a => cases h

/-- A directory with an empty corpus and a rule file. -/
def treeWith (ruleFile text : String) : FileTree :=
  (FileTree.empty.put ["u.json"] (.file "\x7b\x7d".toUTF8)).put [ruleFile] (.file text.toUTF8)

/-- A rule file that cannot be read makes both commands fail, and stays as it is. -/
theorem files_of_unreadable_rules :
    (∃ e transcript, runOn (label false { tag := some "v0" }) {} (treeWith "rules_v0.json" "x") =
      ((.error e, transcript), treeWith "rules_v0.json" "x")) ∧
    ∃ e transcript t', runOn (mine false "u.json" none true none { tag := some "v1" }) {}
        (treeWith "rules_v0.json" "x") = ((.error e, transcript), t') ∧
      t'.read "rules_v0.json" = .ok "x".toUTF8 := by
  have hlabel : (runOn (label false { tag := some "v0" }) {}
      (treeWith "rules_v0.json" "x")).1.1.isOk = false := by decide +kernel
  have hmine : (runOn (mine false "u.json" none true none { tag := some "v1" }) {}
      (treeWith "rules_v0.json" "x")).1.1.isOk = false := by decide +kernel
  have hread : (treeWith "rules_v0.json" "x").read "rules_v0.json" = .ok "x".toUTF8 := by rfl
  obtain ⟨e, transcript, t', h⟩ := exists_eq_error hlabel
  obtain ⟨e', transcript', t'', h'⟩ := exists_eq_error hmine
  refine ⟨⟨e, transcript, ?_⟩, e', transcript', t'', h', ?_⟩
  · obtain rfl := (files_of_failure false _ _ _ _ _ _).1 h
    exact h
  · refine (((files_of_failure false _ _ _ _ _ _).2 _ _ _ none h').2 ?_).2 _ _ hread
    intro out cause hout
    cases hout

/-- A summary that cannot be written makes mining fail after the rule file was replaced. -/
theorem rules_replaced_without_summary :
    ∃ e transcript t', runOn (mine false "u.json" none false (some "s/x.json")
        { tag := some "v1" }) {} (treeWith "rules_v1.json" "null") = ((.error e, transcript), t') ∧
      (treeWith "rules_v1.json" "null").textAt "rules_v1.json" = .ok "null" ∧
      t'.textAt "rules_v1.json" = .ok "[]" := by
  have hfailed : (runOn (mine false "u.json" none false (some "s/x.json")
      { tag := some "v1" }) {} (treeWith "rules_v1.json" "null")).1.1.isOk = false := by
    decide +kernel
  have hafter : (runOn (mine false "u.json" none false (some "s/x.json")
      { tag := some "v1" }) {} (treeWith "rules_v1.json" "null")).2.textAt "rules_v1.json" =
        .ok "[]" := by
    decide +kernel
  obtain ⟨e, transcript, t', h⟩ := exists_eq_error hfailed
  rw [h] at hafter
  exact ⟨e, transcript, t', h, by decide +kernel, hafter⟩

end UsageRules.CommandLine
