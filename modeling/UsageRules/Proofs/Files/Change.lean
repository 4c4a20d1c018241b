import UsageRules.Proofs.Files.Tree
import UsageRules.Proofs.SortedMap

/-! What stays when directories are made or files are written. Making directories keeps every file
and makes none (`FileTree.keepsFiles_makeDirectories`). Writing to a path keeps what other files
hold (`FileTree.read_of_write_of_read`), and to write the same again changes nothing
(`FileTree.write_of_write`). -/

namespace UsageRules

namespace FileTree

variable {t t' : FileTree} {path : String}

/-! ## Writing and reading -/

/-- A file that is there can be written. -/
theorem exists_write_of_read {old : ByteArray} (h : t.read path = .ok old) (bytes : ByteArray) :
    ∃ t', t.write path bytes = .ok t' := by
  obtain ⟨directory, name, names, hlocate, hslash, hbelow, hentry⟩ := read_eq_ok_iff.mp h
  exact ⟨_, write_eq_ok_iff.mpr
    ⟨directory, name, names, hlocate, hslash, hbelow, by simp [hentry], rfl⟩⟩

/-- To write again what was written changes nothing. -/
theorem write_of_write {bytes : ByteArray} (h : t.write path bytes = .ok t') :
    t'.write path bytes = .ok t' := by
  obtain ⟨directory, name, names, hlocate, hslash, hbelow, hentry, rfl⟩ := write_eq_ok_iff.mp h
  have hnames := below_ne_nil hbelow
  have hlocate' := (keepsDirectories_put_file hnames hentry bytes).locate_eq_ok hlocate
  refine write_eq_ok_iff.mpr ⟨directory, name, names, hlocate', hslash, hbelow, ?_, ?_⟩
  · simp [entry?_put hnames]
  · rw [put, put, SortedMap.insert_insert]

/-- A file that was read before another one was written is still read, unless it was the one that
was written. -/
theorem read_of_write_of_read {other : String} {bytes old : ByteArray}
    (hwrite : t.write path bytes = .ok t') (hread : t.read other = .ok old) :
    t'.read other = .ok old ∨ (t.read path = .ok old ∧ t'.read other = .ok bytes) := by
  obtain ⟨directory, name, names, hlocate, hslash, hbelow, hentry, rfl⟩ :=
    write_eq_ok_iff.mp hwrite
  obtain ⟨directory', name', names', hlocate', hslash', hbelow', hentry'⟩ :=
    read_eq_ok_iff.mp hread
  have hnames := below_ne_nil hbelow
  have hafter := (keepsDirectories_put_file hnames hentry bytes).locate_eq_ok hlocate'
  have hput := entry?_put (t := t) hnames (.file bytes) names'
  by_cases hsame : names' = names
  · subst hsame
    rw [if_pos rfl] at hput
    exact .inr ⟨read_eq_ok_iff.mpr ⟨_, _, _, hlocate, hslash, hbelow, hentry'⟩,
      read_eq_ok_iff.mpr ⟨_, _, _, hafter, hslash', hbelow', hput⟩⟩
  · rw [if_neg hsame, hentry'] at hput
    exact .inl (read_eq_ok_iff.mpr ⟨_, _, _, hafter, hslash', hbelow', hput⟩)

/-! ## The same files -/

/-- The files are the same, at the same names, and no directory is gone. -/
structure SameFiles (t t' : FileTree) : Prop extends KeepsDirectories t t' where
  file : ∀ names bytes, t'.entry? names = some (.file bytes) ↔ t.entry? names = some (.file bytes)

namespace SameFiles

theorem refl (t : FileTree) : SameFiles t t where
  home := rfl
  directory _ h := h
  file _ _ := Iff.rfl

theorem trans {t₁ t₂ t₃ : FileTree} (h : SameFiles t₁ t₂) (h' : SameFiles t₂ t₃) :
    SameFiles t₁ t₃ where
  home := h'.home.trans h.home
  directory names hnames := h'.directory names (h.directory names hnames)
  file names bytes := (h'.file names bytes).trans (h.file names bytes)

theorem read_eq_ok (h : SameFiles t t') {bytes : ByteArray} (hread : t.read path = .ok bytes) :
    t'.read path = .ok bytes := by
  obtain ⟨directory, name, names, hlocate, hslash, hbelow, hentry⟩ := read_eq_ok_iff.mp hread
  exact read_eq_ok_iff.mpr ⟨directory, name, names, h.locate_eq_ok hlocate, hslash, hbelow,
    (h.file names bytes).mpr hentry⟩

end SameFiles

theorem sameFiles_put_directory {names : List String} (hnames : names ≠ [])
    (h : t.entry? names = none) : SameFiles t (t.put names .directory) where
  home := rfl
  directory other hother := by
    rw [entry?_put hnames]
    split
    · rfl
    · exact hother
  file other bytes := by
    rw [entry?_put hnames]
    split
    · rename_i heq
      simp [heq, h]
    · exact Iff.rfl

theorem sameFiles_of_makeDirectory (h : t.makeDirectory path = .ok t') : SameFiles t t' := by
  obtain ⟨place, hlocate, hplace⟩ := bind_eq_ok_iff.mp h
  cases place with
  | directory names => cases hplace
  | entry directory name =>
    obtain ⟨names, hbelow, hentry⟩ := bind_eq_ok_iff.mp hplace
    split at hentry
    · rename_i hnone
      cases hentry
      exact sameFiles_put_directory (below_ne_nil hbelow) hnone
    · cases hentry

/-- An operation that keeps all files and makes none, whatever its result is. -/
def KeepsFiles {α : Type} (x : StateM FileTree α) : Prop := ∀ t, SameFiles t (x.run t).2

namespace KeepsFiles

variable {α β : Type}

theorem pure (a : α) : KeepsFiles (Pure.pure a) := SameFiles.refl

theorem bind {x : StateM FileTree α} {next : α → StateM FileTree β} (h : KeepsFiles x)
    (hnext : ∀ a, KeepsFiles (next a)) : KeepsFiles (x >>= next) := fun t =>
  (h t).trans (hnext _ _)

end KeepsFiles

theorem keepsFiles_makeDirectory (path : String) :
    KeepsFiles (FileHost.makeDirectory path : StateM FileTree _) := by
  intro t
  have hrun : (FileHost.makeDirectory path : StateM FileTree _).run t =
      change (·.makeDirectory path) t := rfl
  rw [hrun, change]
  cases hmake : t.makeDirectory path with
  | ok t' => exact sameFiles_of_makeDirectory hmake
  | error e => exact .refl t

theorem keepsFiles_ensureDirectory (path : String) :
    KeepsFiles (FileHost.ensureDirectory path : StateM FileTree _) := by
  refine (keepsFiles_makeDirectory path).bind fun result => ?_
  split
  · refine KeepsFiles.bind SameFiles.refl fun there => ?_
    split <;> exact .pure _
  · exact .pure _

theorem keepsFiles_ensureAll (paths : List String) :
    KeepsFiles (FileHost.ensureAll paths : StateM FileTree _) := by
  induction paths with
  | nil => exact .pure _
  | cons path rest ih =>
    refine (keepsFiles_ensureDirectory path).bind fun result => ?_
    split
    · refine ih.bind fun result => ?_
      split
      · exact keepsFiles_ensureDirectory path
      · exact .pure _
    · exact .pure _

theorem keepsFiles_makeDirectories (path : String) :
    KeepsFiles (FileHost.makeDirectories path : StateM FileTree _) :=
  keepsFiles_ensureAll (Path.ancestors path)

end FileTree

end UsageRules
