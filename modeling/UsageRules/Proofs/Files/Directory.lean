import Mathlib.Data.List.Basic
import UsageRules.Proofs.Files.Path
import UsageRules.Proofs.Files.Tree
import UsageRules.Proofs.SortedMap

/-! Files in a directory. If a file can be written to a name in a directory, the directory is found
and lists the name afterwards (`FileTree.mem_list_of_write_join`). It lists no name with a slash
(`FileTree.no_slash_of_mem_list`), as nothing that is written makes one
(`FileTree.wellNamed_of_write`). -/

namespace UsageRules

theorem Path.isAbsolute_of_names_eq_nil {path : String} (hne : path ≠ "") (h : names path = []) :
    isAbsolute path = true := by
  have hlist : path.toList ≠ [] := by simpa using hne
  obtain ⟨c, s, hcons⟩ := List.exists_cons_of_ne_nil hlist
  by_cases hc : c = '/'
  · simp [isAbsolute, hcons, hc]
  · -- The first part begins with the first character, so it is a name.
    obtain ⟨part, parts, hparts⟩ := List.exists_cons_of_ne_nil (Text.splitAll_ne_nil '/' s)
    simp [names, hcons, Text.splitAll, hc, hparts] at h

namespace FileTree

variable {t t' : FileTree}

/-! ## Where a path leads -/

theorem enter_append (names path path' : List String) :
    t.enter names (path ++ path') = t.enter names path >>= (t.enter · path') := by
  induction names, path using enter.induct with
  | case1 names => rfl
  | case2 names rest ih => rw [List.cons_append, enter, enter, ih]
  | case3 names rest ih => rw [List.cons_append, enter, enter, ih]
  | case4 names name rest hdot hdots ih =>
    rw [List.cons_append, enter.eq_4 _ _ _ _ hdot hdots, enter.eq_4 _ _ _ _ hdot hdots]
    cases below names name with
    | error e => rfl
    | ok next =>
      simp only [bind, Except.bind]
      cases t.entry? next with
      | none => rfl
      | some e =>
        cases e with
        | file bytes => rfl
        | directory => exact ih next

/-- What a path needs so that it can lead anywhere. -/
structure Locatable (path : String) : Prop where
  no_nul : '\x00' ∉ path.toList
  short : path.utf8ByteSize < 4096
  ne_empty : path ≠ ""

theorem locatable_of_locate {path : String} {place : Place} (h : t.locate path = .ok place) :
    Locatable path := by
  rw [locate] at h
  split at h
  · cases h
  split at h
  · cases h
  split at h
  · cases h
  · rename_i hnul hsize hempty
    exact ⟨by simpa using hnul, by omega, by simpa using hempty⟩

theorem locate_eq {path : String} (h : Locatable path) :
    t.locate path = match (Path.names path).getLast? with
      | none => .ok (.directory [])
      | some last =>
        t.enter (if Path.isAbsolute path then [] else t.home) (Path.names path).dropLast >>=
          fun directory =>
            if last = "." then .ok (.directory directory)
            else if last = ".." then .ok (.directory directory.dropLast)
            else .ok (.entry directory last) := by
  have hnul : ¬path.toList.contains '\x00' = true := by simpa using h.no_nul
  have hsize : ¬4096 ≤ path.utf8ByteSize := Nat.not_le.mpr h.short
  have hempty : ¬path.isEmpty = true := by simpa using h.ne_empty
  rw [locate, if_neg hnul, if_neg hsize]
  exact if_neg hempty

theorem enter_singleton {names found : List String} {last : String} :
    t.enter names [last] = .ok found ↔
      (last = "." ∧ found = names) ∨ (last = ".." ∧ found = names.dropLast) ∨
        (last ≠ "." ∧ last ≠ ".." ∧ below names last = .ok found ∧
          t.entry? found = some .directory) := by
  by_cases hdot : last = "."
  · subst hdot
    simp [enter, eq_comm]
  by_cases hdots : last = ".."
  · subst hdots
    simp [enter, eq_comm]
  · rw [enter.eq_4 _ _ _ _ hdot hdots]
    cases hbelow : below names last with
    | error e => simp [hdot, hdots, bind, Except.bind]
    | ok next =>
      have hstep : (t.enter next [] = .ok found) = (next = found) := by simp [enter]
      simp only [hdot, hdots, false_and, ne_eq, not_false_eq_true, true_and, false_or,
        Except.ok.injEq, bind, Except.bind]
      split
      · rename_i hentry
        constructor
        · intro h
          cases h
        · rintro ⟨rfl, h⟩
          simp [hentry] at h
      · rename_i hentry
        constructor
        · intro h
          cases h
        · rintro ⟨rfl, h⟩
          simp [hentry] at h
      · rename_i hentry
        rw [hstep]
        exact ⟨fun h => ⟨h, h ▸ hentry⟩, And.left⟩

/-- A path of which all names can be entered leads to a directory. -/
theorem find_of_enter {path : String} {names : List String} (h : Locatable path)
    (henter : t.enter (if Path.isAbsolute path then [] else t.home) (Path.names path) = .ok names) :
    t.find path = .ok (names, .directory) := by
  rw [find, locate_eq h]
  cases hlast : (Path.names path).getLast? with
  | none =>
    have hnil : Path.names path = [] := List.getLast?_eq_none_iff.mp hlast
    rw [hnil, if_pos (Path.isAbsolute_of_names_eq_nil h.ne_empty hnil)] at henter
    cases henter
    rfl
  | some last =>
    obtain ⟨init, hconcat⟩ := List.getLast?_eq_some_iff.mp hlast
    rw [hconcat, enter_append] at henter
    rw [hconcat, List.dropLast_concat]
    cases hinit : t.enter (if Path.isAbsolute path then [] else t.home) init with
    | error e =>
      rw [hinit] at henter
      cases henter
    | ok directory =>
      rw [hinit] at henter
      rcases enter_singleton.mp henter with ⟨rfl, rfl⟩ | ⟨rfl, rfl⟩ | ⟨hdot, hdots, hbelow, hentry⟩
      · rfl
      · rfl
      · simp [hdot, hdots, hbelow, hentry, bind, Except.bind]

/-- Where a path below a directory is located, the directory is found. -/
theorem exists_find_of_locate_join {directory name : String} {place : Place}
    (hname : Path.names name ≠ []) (hne : directory ≠ "")
    (h : t.locate (Path.join directory name) = .ok place) :
    ∃ found, t.enter (if Path.isAbsolute directory then [] else t.home) (Path.names directory) =
        .ok found ∧ t.find directory = .ok (found, .directory) := by
  have hjoin := locatable_of_locate h
  have hdirectory : Locatable directory := {
    no_nul := fun hmem => hjoin.no_nul ((Path.toList_prefix_join directory name).subset hmem)
    short := Nat.lt_of_le_of_lt (Path.utf8ByteSize_le_join directory name) hjoin.short
    ne_empty := hne }
  rw [locate_eq hjoin, Path.names_join_append, List.getLast?_append_of_ne_nil _ hname,
    List.getLast?_eq_some_getLast hname, List.dropLast_append_of_ne_nil hname,
    Path.isAbsolute_join hne, enter_append] at h
  cases henter : t.enter (if Path.isAbsolute directory then [] else t.home)
      (Path.names directory) with
  | error e =>
    rw [henter] at h
    cases h
  | ok found => exact ⟨found, rfl, find_of_enter hdirectory henter⟩

/-- Where a name in a directory is located, the directory is found. -/
theorem find_of_locate_join {directory name last : String} {names : List String}
    (hname : Path.IsName name) (hne : directory ≠ "")
    (h : t.locate (Path.join directory name) = .ok (.entry names last)) :
    last = name ∧ t.find directory = .ok (names, .directory) := by
  have hnames : Path.names name ≠ [] := by simp [Path.names_of_isName hname]
  obtain ⟨found, henter, hfind⟩ := exists_find_of_locate_join hnames hne h
  rw [locate_eq (locatable_of_locate h), Path.names_join hname, List.getLast?_concat,
    List.dropLast_concat, Path.isAbsolute_join hne, henter] at h
  simp only [bind, Except.bind] at h
  split at h
  · cases h
  split at h
  · cases h
  · cases h
    exact ⟨rfl, hfind⟩

/-! ## Listing -/

/-- A directory can be listed if a file was written below it. -/
theorem exists_list_of_write_join {directory name : String} {bytes : ByteArray}
    (hname : Path.names name ≠ []) (hne : directory ≠ "")
    (h : t.write (Path.join directory name) bytes = .ok t') :
    ∃ names, t'.list directory = .ok names := by
  obtain ⟨parent, last, names, hlocate, -, hbelow, hentry, rfl⟩ := write_eq_ok_iff.mp h
  have hlocate' := (keepsDirectories_put_file (below_ne_nil hbelow) hentry bytes).locate_eq_ok
    hlocate
  obtain ⟨found, -, hfind⟩ := exists_find_of_locate_join hname hne hlocate'
  exact ⟨_, by rw [list, hfind]; rfl⟩

/-- A name under which a file was written is listed in the directory. -/
theorem mem_list_of_write_join {directory name : String} {bytes : ByteArray}
    (hname : Path.IsName name) (hne : directory ≠ "")
    (h : t.write (Path.join directory name) bytes = .ok t') :
    ∃ names, t'.list directory = .ok names ∧ name ∈ names := by
  obtain ⟨parent, last, names, hlocate, -, hbelow, hentry, rfl⟩ := write_eq_ok_iff.mp h
  have hnames := below_ne_nil hbelow
  have hlocate' := (keepsDirectories_put_file hnames hentry bytes).locate_eq_ok hlocate
  obtain ⟨rfl, hfind⟩ := find_of_locate_join hname hne hlocate'
  have hmem : (names, Entry.file bytes) ∈ (t.put names (.file bytes)).entries.entries :=
    (SortedMap.find_eq_some_iff (t.put names (.file bytes)).entries.ascending).mp
      ((SortedMap.get?_insert t.entries names names _).trans (if_pos rfl))
  have heq := eq_append_of_below hbelow
  have hprefix : parent.isPrefixOf? (parent ++ [last]) = some [last] :=
    List.isPrefixOf?_eq_some_iff_append_eq.mpr rfl
  refine ⟨_, by rw [list, hfind]; rfl, List.mem_filterMap.mpr ⟨_, hmem, ?_⟩⟩
  rw [heq, hprefix]

/-! ## Names without a slash -/

/-- No name has a slash, as it is in every tree that comes from writing to paths. -/
structure WellNamed (t : FileTree) : Prop where
  home : ∀ name ∈ t.home, '/' ∉ name.toList
  entry : ∀ names e, t.entry? names = some e → ∀ name ∈ names, '/' ∉ name.toList

theorem wellNamed_empty : WellNamed .empty where
  home _ h := absurd h List.not_mem_nil
  entry names e h name hname := by
    cases names with
    | nil => cases hname
    | cons first rest => cases h

theorem no_slash_of_enter {names path found : List String}
    (hnames : ∀ name ∈ names, '/' ∉ name.toList) (hpath : ∀ name ∈ path, '/' ∉ name.toList)
    (h : t.enter names path = .ok found) : ∀ name ∈ found, '/' ∉ name.toList := by
  induction names, path using enter.induct with
  | case1 names =>
    cases h
    exact hnames
  | case2 names rest ih => exact ih hnames (fun name hname => hpath name (.tail _ hname)) h
  | case3 names rest ih =>
    exact ih (fun name hname => hnames name ((List.dropLast_sublist _).subset hname))
      (fun name hname => hpath name (.tail _ hname)) h
  | case4 names name rest hdot hdots ih =>
    rw [enter.eq_4 _ _ _ _ hdot hdots] at h
    obtain ⟨next, hbelow, hnext⟩ := bind_eq_ok_iff.mp h
    split at hnext
    · cases hnext
    · cases hnext
    · refine ih next ?_ (fun name hname => hpath name (.tail _ hname)) hnext
      rw [eq_append_of_below hbelow]
      intro other hother
      rcases List.mem_append.mp hother with hother | hother
      · exact hnames other hother
      · rw [List.mem_singleton.mp hother]
        exact hpath name List.mem_cons_self

theorem no_slash_of_locate {path name : String} {directory : List String} (h : t.WellNamed)
    (hlocate : t.locate path = .ok (.entry directory name)) :
    ∀ other ∈ directory ++ [name], '/' ∉ other.toList := by
  have hstart : ∀ other ∈ (if Path.isAbsolute path then [] else t.home), '/' ∉ other.toList := by
    split
    · exact fun _ hother => absurd hother List.not_mem_nil
    · exact h.home
  rw [locate_eq (locatable_of_locate hlocate)] at hlocate
  split at hlocate
  · cases hlocate
  · rename_i last hlast
    obtain ⟨found, henter, hplace⟩ := bind_eq_ok_iff.mp hlocate
    split at hplace
    · cases hplace
    split at hplace
    · cases hplace
    · cases hplace
      intro other hother
      rcases List.mem_append.mp hother with hother | hother
      · exact no_slash_of_enter hstart (fun part hpart => Path.no_slash_of_mem_names
          ((List.dropLast_sublist _).subset hpart)) henter other hother
      · rw [List.mem_singleton.mp hother]
        exact Path.no_slash_of_mem_names (List.mem_of_getLast? hlast)

/-- Writing to a path makes no name with a slash. -/
theorem wellNamed_of_write {path : String} {bytes : ByteArray} (h : t.WellNamed)
    (hwrite : t.write path bytes = .ok t') : t'.WellNamed := by
  obtain ⟨directory, name, names, hlocate, -, hbelow, -, rfl⟩ := write_eq_ok_iff.mp hwrite
  refine ⟨h.home, fun other e hother => ?_⟩
  rw [entry?_put (below_ne_nil hbelow)] at hother
  split at hother
  · rename_i heq
    rw [heq, eq_append_of_below hbelow]
    exact no_slash_of_locate h hlocate
  · exact h.entry other e hother

theorem no_slash_of_mem_list {path name : String} {names : List String} (h : t.WellNamed)
    (hlist : t.list path = .ok names) (hname : name ∈ names) : '/' ∉ name.toList := by
  obtain ⟨⟨parent, e⟩, -, hentries⟩ := bind_eq_ok_iff.mp hlist
  cases e with
  | file bytes => cases hentries
  | directory =>
    cases hentries
    obtain ⟨⟨key, e⟩, hmem, hkey⟩ := List.mem_filterMap.mp hname
    split at hkey
    · rename_i heq
      cases hkey
      obtain rfl := List.isPrefixOf?_eq_some_iff_append_eq.mp heq
      have hentry : t.entry? (parent ++ [name]) = some e := by
        have hget : t.entries.get? (parent ++ [name]) = some e :=
          (SortedMap.find_eq_some_iff t.entries.ascending).mpr hmem
        unfold entry?
        simp [hget]
      exact h.entry _ e hentry name (List.mem_append_right parent List.mem_cons_self)
    · cases hkey

end FileTree

end UsageRules
