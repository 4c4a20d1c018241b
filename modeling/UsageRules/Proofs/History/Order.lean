import Mathlib.Order.Defs.Unbundled
import UsageRules.Proofs.History.Sightings
import UsageRules.Proofs.RuleFile.Loading
import UsageRules.Proofs.Version.Numerals

/-! The order in which a history lists its versions. It is the order of tags, in whichever order the
rule files of a directory were loaded (`RuleFile.historyOf_eq_ok_iff_of_perm`), and for tags of
numerals it is that of their numbers (`History.tags_oldest_first`). -/

namespace UsageRules

/-- A file tree as a place that lists the names in a directory in an order of its own. -/
abbrev FileTree.listedBy (order : List String → List String) : FileHost (StateM FileTree) :=
  { (inferInstance : FileHost (StateM FileTree)) with
    list := fun path t => ((t.list path).map order, t) }

/-- Loads a directory whose names are listed in an order of its own. -/
def History.loadListed (order : List String → List String) (directory : String) :
    RuleFile.OnTree History :=
  letI := FileTree.listedBy order
  History.load directory

instance : IsStrictTotalOrder String Version.Before where
  irrefl := Version.Before.irrefl
  trans _ _ _ := Version.Before.trans
  trichotomous a b hab hba := by
    rcases Version.before_trichotomy a b with h | h | h
    · exact absurd h hab
    · exact h
    · exact absurd h hba

namespace RuleFile

variable {t : FileTree} {directory : String} {names names' : List String}

/-- Of the files that are loaded only the names matter, as each tag names one file. -/
theorem historyOf_of_mem_iff {h : History} (hmem : ∀ name, name ∈ names ↔ name ∈ names')
    (hload : historyOf t directory names = .ok h) : historyOf t directory names' = .ok h := by
  cases hload' : historyOf t directory names' with
  | error e =>
    obtain ⟨name, hname, ⟨tag, htag⟩, hfail⟩ := exists_of_historyOf_eq_error hload'
    obtain ⟨versions, hversions, -⟩ := historyOf_eq_ok_iff.mp hload
    obtain ⟨version, hversion⟩ :=
      exists_step_of_filterMapM_eq_ok hversions ((hmem name).mpr hname)
    rw [versionAt_eq_error_iff.mpr ⟨⟨tag, htag⟩, hfail⟩] at hversion
    cases hversion
  | ok h' =>
    have hrecords : ∀ tag records, h'.records? tag = some records ↔
        h.records? tag = some records := by
      intro tag records
      rw [records?_iff_of_historyOf hload', records?_iff_of_historyOf hload]
      simp only [hmem]
    have heq : h'.versions = h.versions := SortedMap.eq_of_get?_eq fun tag =>
      Option.ext (hrecords tag)
    rw [show h' = h from congrArg History.mk heq]

theorem historyOf_eq_ok_iff_of_perm {h : History} (hperm : names.Perm names') :
    historyOf t directory names = .ok h ↔ historyOf t directory names' = .ok h :=
  ⟨historyOf_of_mem_iff fun _ => hperm.mem_iff, historyOf_of_mem_iff fun _ => hperm.mem_iff.symm⟩

theorem run_loadListed (order : List String → List String) (directory : String) (t : FileTree) :
    (History.loadListed order directory).run.run t =
      match t.list directory with
      | .error e => (.error (.io directory e), t)
      | .ok names => (historyOf t directory (order names), t) := by
  have hlist : ((FileTree.listedBy order).list directory).run t =
    ((t.list directory).map order, t) := rfl
  unfold History.loadListed History.load
  rw [run_lift_bind, hlist]
  cases t.list directory with
  | error e => rfl
  | ok names =>
    dsimp only [Except.map]
    rw [run_bind, run_filterMapM (g := versionAt t directory), historyOf]
    · cases (order names).filterMapM (versionAt t directory) <;> rfl
    -- Only the names are listed otherwise: files are read as they are.
    · exact fun name => run_versionAt directory name t

/-- A directory is loaded alike in whichever order its names are listed. -/
theorem run_loadListed_eq_ok_iff {order : List String → List String}
    (horder : ∀ names, (order names).Perm names) {h : History} :
    (History.loadListed order directory).run.run t = (.ok h, t) ↔
      (History.load directory : OnTree History).run.run t = (.ok h, t) := by
  rw [run_loadListed, run_load, historyAt]
  cases t.list directory with
  | error e => rfl
  | ok names =>
    dsimp only
    have hresult (x : Except RulesError History) : (x, t) = (.ok h, t) ↔ x = .ok h := by simp
    exact (hresult _).trans ((historyOf_eq_ok_iff_of_perm (horder names)).trans (hresult _).symm)

end RuleFile

namespace History

open Version RuleFile

/-- Tags have a strict order in which any two are comparable. A history lists its tags in this
order, each once, and there is no other such list of them; the history of a directory is the same in
whichever order its files are loaded. Of two tags with numerals of different numbers the one with
the earlier sequence of numbers comes first. -/
theorem tags_oldest_first :
    IsStrictTotalOrder String Before ∧
    (∀ h : History, h.tags.Nodup ∧ ∀ l : List String, l = h.tags ↔
      l.Pairwise Before ∧ ∀ tag, tag ∈ l ↔ ∃ records, h.records? tag = some records) ∧
    (∀ order : List String → List String, (∀ names, (order names).Perm names) →
      ∀ (directory : String) (t : FileTree) (h : History),
        (loadListed order directory).run.run t = (.ok h, t) ↔
          (load directory : OnTree History).run.run t = (.ok h, t)) ∧
    ∀ (h : History) (tag tag' : String) (numerals numerals' : List (List Char)),
      tag ∈ h.tags → tag' ∈ h.tags → HasNumerals tag numerals → HasNumerals tag' numerals' →
      numerals.map number ≠ numerals'.map number →
        ([tag, tag'].Sublist h.tags ↔ numerals.map number < numerals'.map number) := by
  refine ⟨inferInstance, fun h => ⟨nodup_of_pairwise_before h.pairwise_tags, fun l => ⟨?_, ?_⟩⟩,
    fun order horder directory t h => run_loadListed_eq_ok_iff horder, ?_⟩
  · rintro rfl
    exact ⟨h.pairwise_tags, fun tag => mem_tags_iff⟩
  · exact fun ⟨hl, hmem⟩ => eq_tags hl hmem
  · intro h tag tag' numerals numerals' htag htag' hnumerals hnumerals' hne
    rw [pair_sublist_iff h.pairwise_tags htag htag', hnumerals.before_iff hnumerals' hne]

/-- A directory with the rule files of three versions, whose names have another order than the
tags. -/
def numberedVersions : FileTree :=
  ["rules_v0.0.10.json", "rules_v0.0.09.1.json", "rules_v0.0.9.json"].foldl
    (fun t name => t.put [name] (.file "[]".toUTF8)) .empty

theorem tags_of_numberedVersions : ∃ h : History,
    (loadListed List.reverse ".").run.run numberedVersions = (.ok h, numberedVersions) ∧
    h.tags = ["v0.0.9", "v0.0.09.1", "v0.0.10"] ∧ ["v0.0.09.1", "v0.0.10"].Sublist h.tags := by
  obtain ⟨-, htags, hload, hnumerals⟩ := tags_oldest_first
  obtain ⟨h, hrun, hkeys⟩ : ∃ h : History,
      (load "." : OnTree History).run.run numberedVersions = (.ok h, numberedVersions) ∧
        h.versions.keys.toList = ["v0.0.09.1", "v0.0.10", "v0.0.9"] := ⟨_, rfl, rfl⟩
  have hlist : ["v0.0.9", "v0.0.09.1", "v0.0.10"] = h.tags := by
    refine ((htags h).2 _).mpr ⟨by decide +kernel, fun tag => ?_⟩
    rw [← mem_tags_iff, mem_tags_iff_mem_keys, ← SortedSet.mem_toList, hkeys]
    simp only [List.mem_cons, List.not_mem_nil, or_false]
    tauto
  refine ⟨h, (hload List.reverse List.reverse_perm "." numberedVersions h).mpr hrun, hlist.symm, ?_⟩
  have hmem : "v0.0.09.1" ∈ h.tags ∧ "v0.0.10" ∈ h.tags := hlist ▸ by decide
  exact (hnumerals h _ _ [['0'], ['0'], ['0', '9'], ['1']] [['0'], ['0'], ['1', '0']] hmem.1 hmem.2
    (by decide) (by decide) (by decide)).mpr (by decide)

end History

end UsageRules
