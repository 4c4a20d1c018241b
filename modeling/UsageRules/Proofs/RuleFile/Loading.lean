import UsageRules.Proofs.Files.Directory
import UsageRules.Proofs.RuleFile
import UsageRules.Proofs.RuleFile.Names
import UsageRules.Proofs.Traversal

/-! Loading the rule files of a directory. A rule file that was written is found again under its
tag, unless another one cannot be read (`tags_and_names`). -/

namespace UsageRules

namespace RuleFile

/-! ## What a tree holds -/

/-- The records of the rule file that a path leads to. -/
def recordsAt (t : FileTree) (path : String) : Except RulesError (List Record) :=
  match t.textAt path with
  | .error e => .error (.io path e)
  | .ok text => match recordsOf? text with
    | some records => .ok records
    | none => .error (.notRules path)

/-- The version of a name in a directory with its records, if it is the name of a rule file. -/
def versionAt (t : FileTree) (directory name : String) :
    Except RulesError (Option (String × List Record)) :=
  match versionOf? name with
  | none => .ok none
  | some tag => (recordsAt t (Path.join directory name)).map fun records => some (tag, records)

/-- The history of the rule files among some names in a directory. -/
def historyOf (t : FileTree) (directory : String) (names : List String) :
    Except RulesError History :=
  (names.filterMapM (versionAt t directory)).map fun versions => ⟨.ofList versions⟩

/-- The history of the rule files of a directory. -/
def historyAt (t : FileTree) (directory : String) : Except RulesError History :=
  match t.list directory with
  | .error e => .error (.io directory e)
  | .ok names => historyOf t directory names

/-! ## Reading -/

theorem run_read_eq (path : String) (t : FileTree) :
    (read path : OnTree (List Record)).run.run t = (recordsAt t path, t) := by
  rw [read, run_lift_bind, FileTree.run_readText, recordsAt]
  cases t.textAt path with
  | error e => rfl
  | ok text =>
    dsimp only
    cases recordsOf? text <;> rfl

theorem run_bind {α β : Type} (x : OnTree α) (next : α → OnTree β) (t : FileTree) :
    (x >>= next).run.run t = match x.run.run t with
      | (.ok a, t') => (next a).run.run t'
      | (.error e, t') => (.error e, t') := by
  rw [ExceptT.run_bind, StateT.run_bind]
  obtain ⟨result, t'⟩ := x.run.run t
  cases result <;> rfl

theorem run_filterMapM {α β : Type} {f : α → OnTree (Option β)}
    {g : α → Except RulesError (Option β)} {t : FileTree} (h : ∀ a, (f a).run.run t = (g a, t))
    (l : List α) : (l.filterMapM f).run.run t = (l.filterMapM g, t) := by
  induction l with
  | nil => rfl
  | cons a l ih =>
    rw [List.filterMapM_cons, List.filterMapM_cons, run_bind, h]
    cases g a with
    | error e => rfl
    | ok o =>
      cases o with
      | none => exact ih
      | some b =>
        dsimp only
        rw [run_bind, ih]
        cases l.filterMapM g <;> rfl

/-- A name in a directory is read as the version whose rule file it is. -/
theorem run_versionAt (directory name : String) (t : FileTree) :
    (match versionOf? name with
      | none => pure none
      | some tag => do
        let records ← read (Path.join directory name)
        pure (some (tag, records)) : OnTree (Option (String × List Record))).run.run t =
      (versionAt t directory name, t) := by
  rw [versionAt]
  cases versionOf? name with
  | none => rfl
  | some tag =>
    dsimp only
    rw [run_bind, run_read_eq]
    cases recordsAt t (Path.join directory name) <;> rfl

theorem run_load (directory : String) (t : FileTree) :
    (History.load directory : OnTree History).run.run t = (historyAt t directory, t) := by
  have hlist : (FileHost.list directory : StateM FileTree _).run t = (t.list directory, t) := rfl
  rw [History.load, run_lift_bind, hlist, historyAt]
  cases t.list directory with
  | error e => rfl
  | ok names =>
    dsimp only
    rw [run_bind, run_filterMapM (g := versionAt t directory), historyOf]
    · cases names.filterMapM (versionAt t directory) <;> rfl
    · exact fun name => run_versionAt directory name t

/-! ## Finding what was written -/

variable {t t' : FileTree} {directory name path tag : String} {records : List Record}

theorem recordsAt_eq_ok_iff : recordsAt t path = .ok records ↔
    ∃ text, t.textAt path = .ok text ∧ recordsOf? text = some records := by
  rw [recordsAt]
  cases t.textAt path with
  | error e => simp
  | ok text =>
    dsimp only
    cases hrecords : recordsOf? text <;> simp [hrecords]

theorem recordsAt_of_write (h : t.write path (textOf records).toUTF8 = .ok t') :
    recordsAt t' path = .ok records :=
  recordsAt_eq_ok_iff.mpr ⟨_, FileTree.textAt_eq_ok_iff.mpr (FileTree.read_of_write h),
    recordsOf?_textOf records⟩

theorem pathExists_of_recordsAt (h : recordsAt t path = .ok records) :
    t.pathExists path = true := by
  obtain ⟨text, htext, -⟩ := recordsAt_eq_ok_iff.mp h
  obtain ⟨found, hfind⟩ := FileTree.exists_find_of_read (FileTree.textAt_eq_ok_iff.mp htext)
  rw [FileTree.pathExists, hfind]
  rfl

/-- A file name has the slashes of its tag. -/
theorem slash_mem_of_nameOf (h : nameOf tag = .ok name) : '/' ∈ name.toList ↔ '/' ∈ tag.toList := by
  obtain ⟨-, rfl⟩ := nameOf_eq_ok_iff.mp h
  simp [nameStart, nameEnd]

theorem names_ne_nil_of_nameOf (h : nameOf tag = .ok name) : Path.names name ≠ [] := by
  obtain ⟨-, rfl⟩ := nameOf_eq_ok_iff.mp h
  intro hnil
  have habsolute : Path.isAbsolute (nameStart ++ tag ++ nameEnd) = false := by
    simp [Path.isAbsolute, nameStart]
  rw [Path.isAbsolute_of_names_eq_nil (by simp [← String.toList_inj, nameStart]) hnil] at habsolute
  cases habsolute

theorem isName_of_nameOf (h : nameOf tag = .ok name) (hslash : '/' ∉ tag.toList) :
    Path.IsName name := by
  refine ⟨?_, mt (slash_mem_of_nameOf h).mp hslash⟩
  rintro rfl
  exact names_ne_nil_of_nameOf h rfl

theorem versionAt_eq_ok_some_iff {e : String × List Record} :
    versionAt t directory name = .ok (some e) ↔
      versionOf? name = some e.1 ∧ recordsAt t (Path.join directory name) = .ok e.2 := by
  obtain ⟨tag, records⟩ := e
  rw [versionAt]
  cases versionOf? name with
  | none => simp
  | some tag' => cases recordsAt t (Path.join directory name) <;> simp [Except.map]

theorem versionAt_eq_error_iff {e : RulesError} :
    versionAt t directory name = .error e ↔
      (∃ tag, versionOf? name = some tag) ∧ recordsAt t (Path.join directory name) = .error e := by
  rw [versionAt]
  cases versionOf? name with
  | none => simp
  | some tag' => cases recordsAt t (Path.join directory name) <;> simp [Except.map]

section Names
variable {names : List String} {h : History}

theorem historyOf_eq_ok_iff : historyOf t directory names = .ok h ↔
    ∃ versions, names.filterMapM (versionAt t directory) = .ok versions ∧
      h = ⟨.ofList versions⟩ := by
  rw [historyOf]
  cases names.filterMapM (versionAt t directory) <;> simp [Except.map, eq_comm]

/-- A history has the records of the rule files among the names. -/
theorem records?_iff_of_historyOf (hload : historyOf t directory names = .ok h) :
    h.records? tag = some records ↔ ∃ name ∈ names, versionOf? name = some tag ∧
      recordsAt t (Path.join directory name) = .ok records := by
  obtain ⟨versions, hversions, rfl⟩ := historyOf_eq_ok_iff.mp hload
  have hfile : ∀ e ∈ versions, ∃ name ∈ names, versionOf? name = some e.1 ∧
      recordsAt t (Path.join directory name) = .ok e.2 := by
    intro e he
    obtain ⟨name, hname, hstep⟩ := (mem_of_filterMapM_eq_ok hversions).mp he
    exact ⟨name, hname, versionAt_eq_ok_some_iff.mp hstep⟩
  rw [History.records?, SortedMap.get?_ofList, Option.map_eq_some_iff]
  constructor
  · rintro ⟨e, he, rfl⟩
    have htag : e.1 = tag := by simpa using List.find?_some he
    exact htag ▸ hfile e (List.mem_reverse.mp (List.mem_of_find?_eq_some he))
  · rintro ⟨name, hname, hversion, hrecords⟩
    have hmem : (tag, records) ∈ versions := (mem_of_filterMapM_eq_ok hversions).mpr
      ⟨name, hname, versionAt_eq_ok_some_iff.mpr ⟨hversion, hrecords⟩⟩
    have hfound : (versions.reverse.find? (·.1 = tag)).isSome = true :=
      List.find?_isSome.mpr ⟨_, List.mem_reverse.mpr hmem, decide_eq_true rfl⟩
    obtain ⟨e, he⟩ := Option.isSome_iff_exists.mp hfound
    refine ⟨e, he, ?_⟩
    -- An entry with the tag comes from a file with the same name, as the tag names only one.
    obtain ⟨name', -, hversion', hrecords'⟩ :=
      hfile e (List.mem_reverse.mp (List.mem_of_find?_eq_some he))
    have htag : e.1 = tag := by simpa using List.find?_some he
    rw [htag, versionOf?_eq_some_iff] at hversion'
    obtain rfl : name' = name := Except.ok.inj
      (hversion'.1.symm.trans (versionOf?_eq_some_iff.mp hversion).1)
    exact Except.ok.inj (hrecords'.symm.trans hrecords)

/-- A history is not loaded if a rule file among the names cannot be read. -/
theorem exists_of_historyOf_eq_error {e : RulesError}
    (hload : historyOf t directory names = .error e) :
    ∃ name ∈ names, (∃ tag, versionOf? name = some tag) ∧
      recordsAt t (Path.join directory name) = .error e := by
  rw [historyOf] at hload
  cases hversions : names.filterMapM (versionAt t directory) with
  | error e' =>
    rw [hversions] at hload
    cases hload
    obtain ⟨name, hname, hstep⟩ := exists_of_filterMapM_eq_error hversions
    exact ⟨name, hname, versionAt_eq_error_iff.mp hstep⟩
  | ok versions =>
    rw [hversions] at hload
    cases hload

end Names

/-- A rule file that was written is loaded under its tag, unless that is only a small v or has a
slash, or another rule file of the directory cannot be read. -/
theorem load_of_write (hnamed : t.WellNamed) (hdirectory : directory ≠ "")
    (h : (write directory tag records : OnTree String).run.run t = (.ok path, t')) :
    (∃ history, historyAt t' directory = .ok history ∧
        (history.records? tag = some records ↔ tag ≠ "v" ∧ '/' ∉ tag.toList)) ∨
      ∃ e other name names, historyAt t' directory = .error e ∧ other ≠ tag ∧
        nameOf other = .ok name ∧ t'.list directory = .ok names ∧ name ∈ names ∧
        recordsAt t' (Path.join directory name) = .error e := by
  cases hname : nameOf tag with
  | error e =>
    rw [write, hname] at h
    cases h
  | ok name =>
    obtain rfl : path = Path.join directory name := by
      rw [run_write hname] at h
      split at h
      · cases h
      · cases h
        rfl
    have hwritten := FileTree.write_of_run_writeText (writeText_of_write h)
    have hnamed' := FileTree.wellNamed_of_write hnamed hwritten
    have hrecords := recordsAt_of_write hwritten
    obtain ⟨names, hlist⟩ :=
      FileTree.exists_list_of_write_join (names_ne_nil_of_nameOf hname) hdirectory hwritten
    cases hload : historyAt t' directory with
    | ok history =>
      refine .inl ⟨history, rfl, ?_⟩
      simp only [historyAt, hlist] at hload
      rw [records?_iff_of_historyOf hload]
      constructor
      · rintro ⟨other, hmem, hother, -⟩
        obtain ⟨hother, htag⟩ := versionOf?_eq_some_iff.mp hother
        exact ⟨htag, mt (slash_mem_of_nameOf hother).mpr
          (FileTree.no_slash_of_mem_list hnamed' hlist hmem)⟩
      · rintro ⟨htag, hslash⟩
        obtain ⟨listed, hlisted, hmem⟩ := FileTree.mem_list_of_write_join
          (isName_of_nameOf hname hslash) hdirectory hwritten
        obtain rfl := Except.ok.inj (hlist.symm.trans hlisted)
        exact ⟨name, hmem, versionOf?_eq_some_iff.mpr ⟨hname, htag⟩, hrecords⟩
    | error e =>
      simp only [historyAt, hlist] at hload
      obtain ⟨name', hmem', ⟨other, hother⟩, hfail⟩ := exists_of_historyOf_eq_error hload
      refine .inr ⟨e, other, name', names, rfl, ?_, (versionOf?_eq_some_iff.mp hother).1, hlist,
        hmem', hfail⟩
      rintro rfl
      obtain rfl := Except.ok.inj (hname.symm.trans (versionOf?_eq_some_iff.mp hother).1)
      rw [hrecords] at hfail
      cases hfail

/-- A tag names a rule file if a configuration is accepted with it. Its name leads back to it unless
it is only a small v, and the tag that is read off a name has this name. A rule file that was
written under a tag is loaded under that tag if it is more than a small v and has no slash, unless
the file of another version cannot be read. -/
theorem tags_and_names [PatternLanguage] (tag name : String) :
    (∀ c : Config, c.validate = .ok () →
      ((∃ name, nameOf tag = .ok name) ↔ { c with version := tag }.validate = .ok ())) ∧
    (nameOf tag = .ok name → (versionOf? name = some tag ↔ tag ≠ "v")) ∧
    (versionOf? name = some tag → nameOf tag = .ok name) ∧
    ∀ (directory path : String) (records : List Record) (t t' : FileTree),
      t.WellNamed → directory ≠ "" →
      (write directory tag records : OnTree String).run.run t = (.ok path, t') →
      (∃ history, (History.load directory : OnTree History).run.run t' = (.ok history, t') ∧
        (history.records? tag = some records ↔ tag ≠ "v" ∧ '/' ∉ tag.toList)) ∨
      ∃ e other name names, (History.load directory : OnTree History).run.run t' = (.error e, t') ∧
        other ≠ tag ∧ nameOf other = .ok name ∧ t'.list directory = .ok names ∧ name ∈ names ∧
        (read (Path.join directory name) : OnTree (List Record)).run.run t' = (.error e, t') := by
  refine ⟨fun c hc => exists_nameOf_iff_validate hc, fun hname => ?_,
    fun hversion => (versionOf?_eq_some_iff.mp hversion).1, ?_⟩
  · rw [versionOf?_eq_some_iff]
    exact ⟨And.right, fun htag => ⟨hname, htag⟩⟩
  · intro directory path records t t' hnamed hdirectory h
    simp only [run_load, run_read_eq]
    rcases load_of_write hnamed hdirectory h with ⟨history, hload, hrecords⟩ |
      ⟨e, other, name, names, hload, hother, hname, hlist, hmem, hfail⟩
    · exact .inl ⟨history, by rw [hload], hrecords⟩
    · exact .inr ⟨e, other, name, names, by rw [hload], hother, hname, hlist, hmem, by rw [hfail]⟩

/-- A version whose tag has the beginning and the end of a file name in it. -/
theorem load_of_write_prefixed :
    ({} : Config).validate = .ok () ∧
    { ({} : Config) with version := "vrules_.json" }.validate = .ok () ∧
    (∃ name, nameOf "vrules_.json" = .ok name ∧ versionOf? name = some "vrules_.json") ∧
    ∃ t', (write "." "vrules_.json" [oddRecord] : OnTree String).run.run .empty =
        (.ok "./rules_vrules_.json.json", t') ∧
      ∃ history, (History.load "." : OnTree History).run.run t' = (.ok history, t') ∧
        history.records? "vrules_.json" = some [oddRecord] := by
  have hname : nameOf "vrules_.json" = .ok "rules_vrules_.json.json" := by decide +kernel
  obtain ⟨hvalidate, hversion, -, hload⟩ := tags_and_names "vrules_.json" "rules_vrules_.json.json"
  refine ⟨Config.validate_default, (hvalidate {} Config.validate_default).mp ⟨_, hname⟩,
    ⟨_, hname, (hversion hname).mpr (by decide)⟩, _, by rfl, ?_⟩
  rcases hload "." _ [oddRecord] .empty _ FileTree.wellNamed_empty (by decide) rfl with
    ⟨history, hfound, hrecords⟩ | ⟨e, other, name, names, -, hother, hname', hlist, hmem, -⟩
  · exact ⟨history, hfound, hrecords.mpr (by decide)⟩
  · -- The only file that is listed is the one that was written.
    have hlist' : names = ["rules_vrules_.json.json"] := (Except.ok.inj hlist).symm
    rw [hlist', List.mem_singleton] at hmem
    exact absurd (eq_of_nameOf_eq (hmem ▸ hname') hname) hother

/-- The name of the small v is no name of a version, and a file that was written under it is not
found. Neither is one that was written under a tag with a slash. -/
theorem not_loaded_under_v :
    nameOf "v" = .ok "rules_v.json" ∧ versionOf? "rules_v.json" = none ∧
    (∃ t' history, (write "." "v" [oddRecord] : OnTree String).run.run .empty =
        (.ok "./rules_v.json", t') ∧
      (History.load "." : OnTree History).run.run t' = (.ok history, t') ∧
        history.records? "v" = none) ∧
    ∃ t' history, (write "." "v1/2" [oddRecord] : OnTree String).run.run
        (FileTree.empty.put ["rules_v1"] .directory) = (.ok "./rules_v1/2.json", t') ∧
      (History.load "." : OnTree History).run.run t' = (.ok history, t') ∧
        history.records? "v1/2" = none :=
  ⟨by decide +kernel, by decide +kernel, ⟨_, _, by rfl, by rfl, by rfl⟩,
    ⟨_, _, by rfl, by rfl, by rfl⟩⟩

end RuleFile

end UsageRules
