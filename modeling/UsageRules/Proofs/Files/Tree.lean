import UsageRules.Files.Host
import UsageRules.Proofs.Traversal

/-! What a change to a file tree does to its entries, and where paths lead after it. -/

namespace UsageRules.FileTree

variable {t t' : FileTree}

/-! ## Entries -/

theorem entry?_put {names : List String} (hnames : names ≠ []) (e : Entry) (other : List String) :
    entry? (t.put names e) other = if other = names then some e else t.entry? other := by
  unfold entry?
  by_cases hempty : other = []
  · subst hempty
    simp [Ne.symm hnames]
  · simp [hempty, put, SortedMap.get?_insert]

/-- Every directory of one tree is a directory of the other, and paths begin at the same one. -/
structure KeepsDirectories (t t' : FileTree) : Prop where
  home : t'.home = t.home
  directory : ∀ names, t.entry? names = some .directory → t'.entry? names = some .directory

/-- A file that comes to be where no directory is leaves all directories where they are. -/
theorem keepsDirectories_put_file {names : List String} (hnames : names ≠ [])
    (h : t.entry? names ≠ some .directory) (bytes : ByteArray) :
    KeepsDirectories t (t.put names (.file bytes)) where
  home := rfl
  directory other hother := by
    have hne : other ≠ names := by
      rintro rfl
      exact h hother
    rw [entry?_put hnames, if_neg hne, hother]

/-! ## Paths -/

namespace KeepsDirectories

theorem enter_eq_ok (h : KeepsDirectories t t') {names path found : List String}
    (henter : t.enter names path = .ok found) : t'.enter names path = .ok found := by
  induction names, path using enter.induct with
  | case1 names => exact henter
  | case2 names rest ih =>
    rw [enter] at henter ⊢
    exact ih henter
  | case3 names rest ih =>
    rw [enter] at henter ⊢
    exact ih henter
  | case4 names name rest hdot hdots ih =>
    rw [enter.eq_4 _ _ _ _ hdot hdots] at henter ⊢
    cases hbelow : below names name with
    | error e => simp [hbelow, bind, Except.bind] at henter
    | ok next =>
      simp only [hbelow, bind, Except.bind] at henter ⊢
      cases hentry : t.entry? next with
      | none => simp [hentry] at henter
      | some e =>
        cases e with
        | file bytes => simp [hentry] at henter
        | directory =>
          simp only [hentry, h.directory next hentry] at henter ⊢
          exact ih next henter

theorem locate_eq_ok (h : KeepsDirectories t t') {path : String} {place : Place}
    (hlocate : t.locate path = .ok place) : t'.locate path = .ok place := by
  simp only [locate, h.home] at hlocate ⊢
  split at hlocate
  · cases hlocate
  split at hlocate
  · cases hlocate
  split at hlocate
  · cases hlocate
  rw [if_neg ‹_›, if_neg ‹_›, if_neg ‹_›]
  split at hlocate
  · exact hlocate
  · rename_i last hlast
    cases henter : t.enter (if Path.isAbsolute path then [] else t.home)
        (Path.names path).dropLast with
    | error e => simp [henter, bind, Except.bind] at hlocate
    | ok directory =>
      rw [henter] at hlocate
      rw [h.enter_eq_ok henter]
      exact hlocate

end KeepsDirectories

/-! ## Writing and reading -/

theorem eq_append_of_below {directory names : List String} {name : String}
    (h : below directory name = .ok names) : names = directory ++ [name] := by
  unfold below at h
  split at h
  · cases h
  · cases h
    rfl

theorem below_ne_nil {directory names : List String} {name : String}
    (h : below directory name = .ok names) : names ≠ [] := by
  simp [eq_append_of_below h]

variable {path : String}

/-- What is read is the file at the name that the path leads to. -/
theorem read_eq_ok_iff {bytes : ByteArray} :
    t.read path = .ok bytes ↔ ∃ directory name names,
      t.locate path = .ok (.entry directory name) ∧ Path.endsInSlash path = false ∧
        below directory name = .ok names ∧ t.entry? names = some (.file bytes) := by
  constructor
  · intro h
    obtain ⟨⟨names, e⟩, hfind, hfile⟩ := bind_eq_ok_iff.mp h
    obtain ⟨place, hlocate, hplace⟩ := bind_eq_ok_iff.mp hfind
    cases e with
    | directory => cases hfile
    | file found =>
      cases hfile
      cases place with
      | directory names' => cases hplace
      | entry directory name =>
        obtain ⟨names', hbelow, hentry⟩ := bind_eq_ok_iff.mp hplace
        split at hentry
        · cases hentry
        · cases hentry
        · rename_i hfile
          split at hentry
          · cases hentry
          · rename_i hslash
            cases hentry
            exact ⟨directory, name, _, hlocate, by simpa using hslash, hbelow, hfile⟩
  · rintro ⟨directory, name, names, hlocate, hslash, hbelow, hentry⟩
    simp [read, find, hlocate, hslash, hbelow, hentry, bind, Except.bind]

/-- A file is written at the name that the path leads to, which must not be a directory's. -/
theorem write_eq_ok_iff {bytes : ByteArray} :
    t.write path bytes = .ok t' ↔ ∃ directory name names,
      t.locate path = .ok (.entry directory name) ∧ Path.endsInSlash path = false ∧
        below directory name = .ok names ∧ t.entry? names ≠ some .directory ∧
        t' = t.put names (.file bytes) := by
  constructor
  · intro h
    obtain ⟨place, hlocate, hplace⟩ := bind_eq_ok_iff.mp h
    cases place with
    | directory names => cases hplace
    | entry directory name =>
      dsimp only at hplace
      split at hplace
      · cases hplace
      rename_i hslash
      obtain ⟨names, hbelow, hentry⟩ := bind_eq_ok_iff.mp hplace
      split at hentry
      · cases hentry
      · rename_i hne
        cases hentry
        exact ⟨directory, name, names, hlocate, by simpa using hslash, hbelow, hne, rfl⟩
  · rintro ⟨directory, name, names, hlocate, hslash, hbelow, hentry, rfl⟩
    cases h : t.entry? names with
    | none => simp [write, hlocate, hslash, hbelow, h, bind, Except.bind]
    | some e =>
      cases e with
      | directory => exact absurd h hentry
      | file found => simp [write, hlocate, hslash, hbelow, h, bind, Except.bind]

theorem read_of_write {bytes : ByteArray} (h : t.write path bytes = .ok t') :
    t'.read path = .ok bytes := by
  obtain ⟨directory, name, names, hlocate, hslash, hbelow, hentry, rfl⟩ := write_eq_ok_iff.mp h
  have hnames := below_ne_nil hbelow
  have hlocate' := (keepsDirectories_put_file hnames hentry bytes).locate_eq_ok hlocate
  have hentry' := entry?_put (t := t) hnames (.file bytes) names
  rw [if_pos rfl] at hentry'
  exact read_eq_ok_iff.mpr ⟨directory, name, names, hlocate', hslash, hbelow, hentry'⟩

/-! ## The tree as a host -/

theorem fromUTF8?_toUTF8 (text : String) : String.fromUTF8? text.toUTF8 = some text := by
  rw [String.fromUTF8?, String.toUTF8_eq_toByteArray, dif_pos text.isValidUTF8]
  rfl

/-- The text of the file that a path leads to. -/
def textAt (t : FileTree) (path : String) : Except FileError String :=
  match t.read path with
  | .error e => .error e
  | .ok bytes => match String.fromUTF8? bytes with
    | some text => .ok text
    | none => .error .notUtf8

/-- A text is read where its bytes are. -/
theorem textAt_eq_ok_iff {text : String} :
    t.textAt path = .ok text ↔ t.read path = .ok text.toUTF8 := by
  rw [textAt]
  cases t.read path with
  | error e => simp
  | ok bytes =>
    dsimp only
    constructor
    · intro h
      split at h
      · rename_i found hfound
        cases h
        rw [String.fromUTF8?] at hfound
        split at hfound
        · cases hfound
          rfl
        · cases hfound
      · cases h
    · intro h
      rw [Except.ok.inj h, fromUTF8?_toUTF8]

theorem exists_find_of_read {bytes : ByteArray} (h : t.read path = .ok bytes) :
    ∃ found, t.find path = .ok found :=
  (bind_eq_ok_iff.mp h).imp fun _ => And.left

theorem run_readText (path : String) (t : FileTree) :
    (FileHost.readText path : StateM FileTree _).run t = (t.textAt path, t) := by
  have hbytes : (FileHost.readBytes path : StateM FileTree _).run t =
      (pure (t.read path, t) : Id _) := rfl
  rw [FileHost.readText, StateT.run_bind, hbytes, pure_bind, textAt]
  cases t.read path with
  | error e => rfl
  | ok bytes =>
    dsimp only
    cases String.fromUTF8? bytes <;> rfl

theorem run_writeText (path text : String) (t : FileTree) :
    (FileHost.writeText path text : StateM FileTree _).run t =
      match t.write path text.toUTF8 with
      | .ok t' => (.ok (), t')
      | .error e => (.error e, t) := rfl

theorem write_of_run_writeText {path text : String}
    (h : (FileHost.writeText path text : StateM FileTree _).run t = (.ok (), t')) :
    t.write path text.toUTF8 = .ok t' := by
  rw [run_writeText] at h
  split at h
  · rename_i hwrite
    cases h
    exact hwrite
  · cases h

/-- A text that was written is read, with nothing changed on the way. -/
theorem readText_of_writeText {path text : String}
    (h : (FileHost.writeText path text : StateM FileTree _).run t = (.ok (), t')) :
    (FileHost.readText path : StateM FileTree _).run t' = (.ok text, t') := by
  rw [run_readText, textAt_eq_ok_iff.mpr (read_of_write (write_of_run_writeText h))]

end UsageRules.FileTree
