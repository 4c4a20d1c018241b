import UsageRules.Proofs.CommandLine.Running
import UsageRules.Proofs.Convention.Labelling
import UsageRules.Proofs.RuleFile.AsConfig

/-! The command that labels the rules of a version. It may only change labels in the rule file, and
changes nothing if it runs again (`CommandLine.label_keeps_records`). -/

namespace UsageRules

namespace CommandLine

/-- The lines that tell how many rules were labelled and how many are unknown still. -/
def labelReport (colours : Bool) (changed remaining : Nat) : List String := [
  paint colours .boldGreen "Labeled" ++ " " ++ number changed ++ " rule(s) as " ++
    paint colours .cyan "part. correct",
  "  " ++ paint colours .yellow "→" ++ " " ++ number remaining ++ " rule(s) still unknown"]

section
variable [PatternLanguage]

/-- The version that a command is run for, with the path and the records of its rule file. -/
def targetAt (t : FileTree) (target : Target) :
    Except CommandError (String × String × List Record) := do
  let config ← configAt t target.config
  let version := target.version config
  let name ← (RuleFile.nameOf version).mapError .rules
  let path := Path.join target.rulesDirectory name
  if t.pathExists path then do
    let records ← (RuleFile.recordsAt t path).mapError .rules
    return (version, path, records)
  else throw (.noRuleFile path)

/-- Labelling reads the rules of the version, writes them with their new labels and reports. -/
theorem runOn_label_eq (colours : Bool) (target : Target) (transcript : Transcript)
    (t : FileTree) :
    runOn (label colours target) transcript t = match targetAt t target with
      | .error e => ((.error e, transcript), t)
      | .ok (version, _, records) =>
        let labeled := Record.autoLabel Convention.known records
        runOn (do
          let _ ← onRules (RuleFile.write target.rulesDirectory version labeled)
          print (labelReport colours (Record.autoLabelCount Convention.known records)
            (labeled.countP (·.label.isUnknown)))) transcript t := by
  rw [label, runOn_bind, runOn_loadConfig, targetAt]
  cases configAt t target.config with
  | error e => rfl
  | ok config =>
    refine (runOn_bind ..).trans ?_
    rw [Target.ruleFile, runOn_bind, runOn_check]
    dsimp only [bind, Except.bind]
    cases RuleFile.nameOf (target.version config) with
    | error e => rfl
    | ok name =>
      refine (runOn_bind ..).trans ?_
      have hexists : (FileHost.pathExists (Path.join target.rulesDirectory name) :
          StateM FileTree Bool).run t =
          (t.pathExists (Path.join target.rulesDirectory name), t) := rfl
      rw [runOn_liftM, hexists]
      dsimp only [Except.mapError]
      cases t.pathExists (Path.join target.rulesDirectory name) with
      | false => rfl
      | true =>
        refine (runOn_bind ..).trans ?_
        rw [runOn_onRules, RuleFile.run_read_eq]
        cases RuleFile.recordsAt t (Path.join target.rulesDirectory name) <;> rfl

variable {t t' : FileTree} {target : Target} {version path : String} {records : List Record}

theorem targetAt_eq_ok_iff : targetAt t target = .ok (version, path, records) ↔
    ∃ config name, configAt t target.config = .ok config ∧ version = target.version config ∧
      RuleFile.nameOf version = .ok name ∧ path = Path.join target.rulesDirectory name ∧
      RuleFile.recordsAt t path = .ok records := by
  simp only [targetAt, bind_eq_ok_iff]
  constructor
  · rintro ⟨config, hconfig, name, hname, htarget⟩
    split at htarget
    · obtain ⟨stored, hstored, heq⟩ := bind_eq_ok_iff.mp htarget
      cases heq
      exact ⟨config, name, hconfig, rfl, mapError_eq_ok_iff.mp hname, rfl,
        mapError_eq_ok_iff.mp hstored⟩
    · cases htarget
  · rintro ⟨config, name, hconfig, rfl, hname, rfl, hrecords⟩
    refine ⟨config, hconfig, name, mapError_eq_ok_iff.mpr hname, ?_⟩
    rw [if_pos (RuleFile.pathExists_of_recordsAt hrecords), hrecords]
    rfl

/-- A configuration stays what it is when a rule file is written anew, even if that is the file of
the configuration. -/
theorem configAt_of_write {source : Option String} {config : Config} {labeled : List Record}
    (hconfig : configAt t source = .ok config) (hrecords : RuleFile.recordsAt t path = .ok records)
    (hwrite : t.write path (RuleFile.textOf labeled).toUTF8 = .ok t')
    (hnil : records = [] → labeled = []) : configAt t' source = .ok config := by
  cases source with
  | none => exact hconfig
  | some source =>
    obtain ⟨read, hread, hvalid⟩ := bind_eq_ok_iff.mp hconfig
    obtain ⟨text, htext, hparse⟩ := documentAt_eq_ok_iff.mp hread
    refine bind_eq_ok_iff.mpr ⟨read, ?_, hvalid⟩
    rcases FileTree.read_of_write_of_read hwrite (FileTree.textAt_eq_ok_iff.mp htext) with
      hsame | ⟨hboth, hafter⟩
    · exact documentAt_eq_ok_iff.mpr ⟨text, FileTree.textAt_eq_ok_iff.mpr hsame, hparse⟩
    · -- The configuration is the rule file, so it holds no rules and sets nothing.
      obtain ⟨stored, hstored, hread'⟩ := RuleFile.recordsAt_eq_ok_iff.mp hrecords
      obtain rfl : stored = text := Except.ok.inj
        (hstored.symm.trans (FileTree.textAt_eq_ok_iff.mpr hboth))
      obtain ⟨hempty, rfl⟩ := RuleFile.eq_nil_of_ofJson hread' hparse
      rw [hnil hempty] at hafter
      refine documentAt_eq_ok_iff.mpr ⟨_, FileTree.textAt_eq_ok_iff.mpr hafter, ?_⟩
      rw [RuleFile.textOf, Json.parse?_pretty]
      rfl

/-- The rules of a version are labelled if they can be read. -/
theorem runOn_label (h : targetAt t target = .ok (version, path, records)) :
    ∃ t', t.write path
        (RuleFile.textOf (Record.autoLabel Convention.known records)).toUTF8 = .ok t' ∧
      ∀ colours transcript, runOn (label colours target) transcript t =
        ((.ok (), { transcript with
          out := transcript.out ++ labelReport colours
            (Record.autoLabelCount Convention.known records)
            ((Record.autoLabel Convention.known records).countP (·.label.isUnknown)) }), t') := by
  obtain ⟨config, name, -, -, hname, rfl, hrecords⟩ := targetAt_eq_ok_iff.mp h
  obtain ⟨text, htext, -⟩ := RuleFile.recordsAt_eq_ok_iff.mp hrecords
  obtain ⟨t', hwrite⟩ := FileTree.exists_write_of_read (FileTree.textAt_eq_ok_iff.mp htext)
    (RuleFile.textOf (Record.autoLabel Convention.known records)).toUTF8
  refine ⟨t', hwrite, fun colours transcript => ?_⟩
  rw [runOn_label_eq, h]
  dsimp only
  rw [runOn_bind, runOn_onRules, RuleFile.run_write hname, FileTree.run_writeText, hwrite]
  rfl

/-- Where rules were labelled they can be labelled once more, which changes nothing. -/
theorem runOn_label_again (h : targetAt t target = .ok (version, path, records))
    (hwrite : t.write path
      (RuleFile.textOf (Record.autoLabel Convention.known records)).toUTF8 = .ok t')
    (colours : Bool) (transcript : Transcript) :
    runOn (label colours target) transcript t' =
      ((.ok (), { transcript with
        out := transcript.out ++ labelReport colours 0
          ((Record.autoLabel Convention.known records).countP (·.label.isUnknown)) }), t') := by
  obtain ⟨config, name, hconfig, hversion, hname, hpath, hrecords⟩ := targetAt_eq_ok_iff.mp h
  have hagain : targetAt t' target =
      .ok (version, path, Record.autoLabel Convention.known records) := by
    refine targetAt_eq_ok_iff.mpr ⟨config, name, ?_, hversion, hname, hpath,
      RuleFile.recordsAt_of_write hwrite⟩
    refine configAt_of_write hconfig hrecords hwrite ?_
    rintro rfl
    rfl
  obtain ⟨t'', hwrite', hrun⟩ := runOn_label hagain
  rw [Record.autoLabel_autoLabel, FileTree.write_of_write hwrite] at hwrite'
  rw [hrun, Record.autoLabel_autoLabel, Record.autoLabelCount_autoLabel, Except.ok.inj hwrite']

/-- After rules were labelled the same records are stored in their order, with no label changed but
those of unknown records that extend a known convention. It is reported how many were changed, and
how many are still unknown. To label again reports no change, and leaves all files as they are. -/
theorem label_keeps_records {colours : Bool} {target : Target} {transcript transcript' : Transcript}
    {t t' : FileTree}
    (h : runOn (label colours target) transcript t = ((.ok (), transcript'), t')) :
    ∃ config name records labeled changed remaining,
      runOn (loadConfig target.config) transcript t = ((.ok config, transcript), t) ∧
      RuleFile.nameOf (target.version config) = .ok name ∧
      (RuleFile.read (Path.join target.rulesDirectory name) :
        RuleFile.OnTree (List Record)).run.run t = (.ok records, t) ∧
      (RuleFile.read (Path.join target.rulesDirectory name) :
        RuleFile.OnTree (List Record)).run.run t' = (.ok labeled, t') ∧
      List.Forall₂ (Record.IsLabelled Convention.known) records labeled ∧
      transcript' = { transcript with
        out := transcript.out ++ labelReport colours changed remaining } ∧
      changed = (records.zip labeled).countP (fun e => e.2.label ≠ e.1.label) ∧
      remaining = labeled.countP (·.label.isUnknown) ∧
      changed + remaining = records.countP (·.label.isUnknown) ∧
      ∀ colours transcript, runOn (label colours target) transcript t' =
        ((.ok (), { transcript with
          out := transcript.out ++ labelReport colours 0 remaining }), t') := by
  cases htarget : targetAt t target with
  | error e =>
    rw [runOn_label_eq, htarget] at h
    cases h
  | ok stored =>
    obtain ⟨version, path, records⟩ := stored
    obtain ⟨config, name, hconfig, rfl, hname, rfl, hrecords⟩ := targetAt_eq_ok_iff.mp htarget
    obtain ⟨written, hwrite, hrun⟩ := runOn_label htarget
    rw [hrun] at h
    cases h
    refine ⟨config, name, records, Record.autoLabel Convention.known records,
      Record.autoLabelCount Convention.known records, _, ?_, hname, ?_, ?_,
      Record.forall₂_autoLabel Convention.known records, rfl,
      (Record.countP_label_ne Convention.known records).symm, rfl,
      Record.autoLabelCount_add_unknown Convention.known records,
      runOn_label_again htarget hwrite⟩
    · rw [runOn_loadConfig, hconfig]
    · rw [RuleFile.run_read_eq, hrecords]
    · rw [RuleFile.run_read_eq, RuleFile.recordsAt_of_write hwrite]

end

/-- Records as an older version could have written them: two have one identifier, and a label is in
its older form. The first extends a known convention. -/
def olderDocument : Json := .array [
  .ofFields [
    ("id", .ofInt 7),
    ("antecedent", .ofStrings [
      Convention.fact "Method" .annotatedWith "Annotation_javax.ws.rs.Path",
      Convention.fact "Method" .annotatedWith "Annotation_javax.ws.rs.Consumes"]),
    ("consequent", .ofStrings ["a"]), ("sameAs", .ofInt 0)],
  .array [.ofInt 7, .ofStrings ["b"], .ofStrings ["c", "b"], .ofString "not a usage", .null],
  .array [.ofInt 8, .ofStrings ["b"], .ofStrings []]]

def olderRecords : List Record := [
  { id := 7
    antecedent := .ofList [Convention.fact "Method" .annotatedWith "Annotation_javax.ws.rs.Path",
      Convention.fact "Method" .annotatedWith "Annotation_javax.ws.rs.Consumes"]
    consequent := .singleton "a"
    sameAs := some 0 },
  { id := 7, antecedent := .singleton "b", consequent := .ofList ["b", "c"], label := .notARule },
  { id := 8, antecedent := .singleton "b", consequent := ∅ }]

def olderTree : FileTree :=
  FileTree.empty.put ["rules_v1.json"] (.file olderDocument.compact.toUTF8)

theorem targetAt_olderTree : targetAt olderTree { tag := some "v1" } =
    .ok ("v1", "./rules_v1.json", olderRecords) := by
  have hread : olderTree.read "./rules_v1.json" = .ok olderDocument.compact.toUTF8 := by rfl
  have hrecords : (olderDocument.asOptional (Json.asList Record.ofJson)).map (·.getD []) =
      some olderRecords := by decide +kernel
  refine targetAt_eq_ok_iff.mpr ⟨{}, "rules_v1.json", rfl, rfl, by decide +kernel,
    by decide +kernel, RuleFile.recordsAt_eq_ok_iff.mpr ⟨olderDocument.compact,
      FileTree.textAt_eq_ok_iff.mpr hread, ?_⟩⟩
  rw [RuleFile.recordsOf?_of_parse (Json.parse?_compact olderDocument), hrecords]

/-- Of the two unknown rules one is labelled. -/
theorem labels_of_olderTree :
    ∃ t', runOn (label false { tag := some "v1" }) {} olderTree =
        ((.ok (), { out := labelReport false 1 1 }), t') ∧
      runOn (label false { tag := some "v1" }) {} t' =
        ((.ok (), { out := labelReport false 0 1 }), t') := by
  obtain ⟨t', hwrite, hrun⟩ := runOn_label targetAt_olderTree
  have hchanged : Record.autoLabelCount Convention.known olderRecords = 1 := by decide +kernel
  have hremaining : (Record.autoLabel Convention.known olderRecords).countP (·.label.isUnknown) =
      1 := by
    have hunknown : olderRecords.countP (·.label.isUnknown) = 2 := by decide +kernel
    have hsum := Record.autoLabelCount_add_unknown Convention.known olderRecords
    omega
  have h := hrun false {}
  rw [hchanged, hremaining] at h
  obtain ⟨config, name, records, labeled, changed, remaining, -, hname, -, hlabeled, -, -, -,
    hcount, -, hagain⟩ := label_keeps_records h
  have hname' : RuleFile.nameOf "v1" = .ok "rules_v1.json" := by decide +kernel
  obtain rfl : "rules_v1.json" = name := Except.ok.inj (hname'.symm.trans hname)
  have hpath : Path.join "." "rules_v1.json" = "./rules_v1.json" := by decide +kernel
  rw [RuleFile.run_read_eq, hpath, RuleFile.recordsAt_of_write hwrite] at hlabeled
  cases hlabeled
  rw [hremaining] at hcount
  exact ⟨t', h, hcount ▸ hagain false {}⟩

end CommandLine

end UsageRules
