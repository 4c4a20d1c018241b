import UsageRules.Files.Path

/-! Paths that end in a name: the names of `Path.join directory name` are those of the directory and
the name (`Path.names_join`). -/

namespace UsageRules

namespace Text

theorem splitAll_ne_nil (sep : Char) (s : List Char) : splitAll sep s ≠ [] := by
  cases s with
  | nil => simp [splitAll]
  | cons c s =>
    rw [splitAll]
    split
    · exact List.cons_ne_nil _ _
    · split <;> exact List.cons_ne_nil _ _

theorem splitAll_append_cons (sep : Char) (s s' : List Char) :
    splitAll sep (s ++ sep :: s') = splitAll sep s ++ splitAll sep s' := by
  induction s with
  | nil => simp [splitAll]
  | cons c s ih =>
    by_cases hc : c = sep
    · simp [splitAll, hc, ih]
    · obtain ⟨part, parts, hparts⟩ := List.exists_cons_of_ne_nil (splitAll_ne_nil sep s)
      simp [splitAll, hc, ih, hparts]

theorem splitAll_of_not_mem {sep : Char} {s : List Char} (h : sep ∉ s) : splitAll sep s = [s] := by
  induction s with
  | nil => rfl
  | cons c s ih =>
    have hc : c ≠ sep := fun heq => h (heq ▸ List.mem_cons_self)
    have hs : sep ∉ s := fun hs => h (List.mem_cons_of_mem c hs)
    simp [splitAll, hc, ih hs]

theorem not_mem_of_mem_splitAll {sep : Char} {s part : List Char} (h : part ∈ splitAll sep s) :
    sep ∉ part := by
  induction s generalizing part with
  | nil => simp_all [splitAll]
  | cons c s ih =>
    obtain ⟨first, parts, hparts⟩ := List.exists_cons_of_ne_nil (splitAll_ne_nil sep s)
    rw [hparts] at ih
    by_cases hc : c = sep
    · simp only [splitAll, hc, if_pos, hparts, List.mem_cons] at h
      rcases h with rfl | h
      · exact List.not_mem_nil
      · exact ih (List.mem_cons.mpr h)
    · simp only [splitAll, hc, if_neg, hparts, List.mem_cons, not_false_eq_true] at h
      rcases h with rfl | h
      · exact fun hmem => (List.mem_cons.mp hmem).elim (fun heq => hc heq.symm)
          (ih List.mem_cons_self)
      · exact ih (List.mem_cons_of_mem first h)

end Text

namespace Path

/-- A name of an entry: a text without a slash. -/
structure IsName (name : String) : Prop where
  ne_empty : name ≠ ""
  no_slash : '/' ∉ name.toList

variable {directory name : String}

theorem endsInSlash_iff : endsInSlash directory = true ↔ ∃ start, directory = start ++ "/" := by
  rw [endsInSlash, decide_eq_true_eq, List.getLast?_eq_some_iff]
  constructor
  · rintro ⟨start, h⟩
    exact ⟨String.ofList start, String.toList_inj.mp (by simpa using h)⟩
  · rintro ⟨start, rfl⟩
    exact ⟨start.toList, by simp⟩

/-- A directory is joined to a name by a slash, which it may have already. -/
theorem join_cases (directory name : String) :
    directory = "" ∧ join directory name = name ∨
      ∃ start, (directory = start ∨ directory = start ++ "/") ∧
        join directory name = start ++ "/" ++ name := by
  by_cases hempty : directory = ""
  · exact .inl ⟨hempty, by simp [join, hempty]⟩
  · refine .inr ?_
    by_cases hslash : endsInSlash directory = true
    · obtain ⟨start, rfl⟩ := endsInSlash_iff.mp hslash
      exact ⟨start, .inr rfl, by simp [join, hslash]⟩
    · exact ⟨directory, .inl rfl, by simp [join, hempty, hslash]⟩

theorem names_append_slash (start rest : String) :
    names (start ++ "/" ++ rest) = names start ++ names rest := by
  have hsplit := Text.splitAll_append_cons '/' start.toList rest.toList
  simp [names, hsplit]

theorem names_of_isName (h : IsName name) : names name = [name] := by
  simp [names, Text.splitAll_of_not_mem h.no_slash, h.ne_empty]

/-- The names of a path that ends in a relative one are those of the directory and of that one. -/
theorem names_join_append (directory name : String) :
    names (join directory name) = names directory ++ names name := by
  rcases join_cases directory name with ⟨rfl, heq⟩ | ⟨start, rfl | rfl, heq⟩
  · rw [heq]
    rfl
  · rw [heq, names_append_slash]
  · have hend : names (start ++ "/") = names start := by
      simpa [names, Text.splitAll] using names_append_slash start ""
    rw [heq, names_append_slash, hend]

theorem no_slash_of_mem_names {path : String} (h : name ∈ names path) : '/' ∉ name.toList := by
  obtain ⟨part, hpart, rfl⟩ := List.mem_map.mp (List.mem_filter.mp h).1
  rw [String.toList_ofList]
  exact Text.not_mem_of_mem_splitAll hpart

theorem names_join (h : IsName name) (directory : String) :
    names (join directory name) = names directory ++ [name] := by
  rw [names_join_append, names_of_isName h]

theorem exists_join_eq (directory name : String) :
    ∃ between, join directory name = directory ++ (between ++ name) := by
  rw [join]
  split
  · exact ⟨"", by simp⟩
  · exact ⟨"/", String.append_assoc⟩

theorem toList_prefix_join (directory name : String) :
    directory.toList <+: (join directory name).toList := by
  obtain ⟨between, heq⟩ := exists_join_eq directory name
  rw [heq, String.toList_append]
  exact List.prefix_append _ _

theorem utf8ByteSize_le_join (directory name : String) :
    directory.utf8ByteSize ≤ (join directory name).utf8ByteSize := by
  obtain ⟨between, heq⟩ := exists_join_eq directory name
  rw [heq, String.utf8ByteSize_append]
  exact Nat.le_add_right _ _

theorem isAbsolute_join (hne : directory ≠ "") (name : String) :
    isAbsolute (join directory name) = isAbsolute directory := by
  have hlist : directory.toList ≠ [] := by simpa using hne
  obtain ⟨c, s, hcons⟩ := List.exists_cons_of_ne_nil hlist
  obtain ⟨rest, heq⟩ := toList_prefix_join directory name
  rw [isAbsolute, isAbsolute, ← heq, hcons]
  rfl

end Path

end UsageRules
