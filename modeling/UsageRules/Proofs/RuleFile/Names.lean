import Mathlib.Data.List.Basic
import UsageRules.Proofs.Config
import UsageRules.RuleFile

/-! Tags and the names of rule files. A tag has a name if a configuration is accepted with it
(`exists_nameOf_iff_validate`), and the name leads back to the tag unless the tag is only a small v
(`versionOf?_eq_some_iff`). -/

namespace UsageRules

theorem isVersionTag_iff {tag : String} : isVersionTag tag = true ↔ ∃ rest, tag = "v" ++ rest := by
  rw [isVersionTag, Text.beginsWith, List.isPrefixOf_iff_prefix]
  constructor
  · rintro ⟨rest, h⟩
    exact ⟨String.ofList rest, String.toList_inj.mp (by simpa using h.symm)⟩
  · rintro ⟨rest, rfl⟩
    exact ⟨rest.toList, by simp⟩

namespace RuleFile

variable {tag name : String}

theorem nameOf_eq_ok_iff :
    nameOf tag = .ok name ↔ isVersionTag tag = true ∧ name = nameStart ++ tag ++ nameEnd := by
  unfold nameOf
  split
  · rename_i htag
    simp [htag, eq_comm]
  · rename_i htag
    simp [htag]

theorem exists_nameOf_iff : (∃ name, nameOf tag = .ok name) ↔ isVersionTag tag = true :=
  ⟨fun ⟨_, h⟩ => (nameOf_eq_ok_iff.mp h).1, fun h => ⟨_, nameOf_eq_ok_iff.mpr ⟨h, rfl⟩⟩⟩

theorem eq_of_nameOf_eq {tag' : String} (h : nameOf tag = .ok name) (h' : nameOf tag' = .ok name) :
    tag = tag' := by
  have heq := congrArg String.toList
    ((nameOf_eq_ok_iff.mp h).2.symm.trans (nameOf_eq_ok_iff.mp h').2)
  simp only [String.toList_append, List.append_assoc, List.append_cancel_left_eq,
    List.append_cancel_right_eq] at heq
  exact String.toList_inj.mp heq

/-- An accepted configuration stays accepted under just those tags that name a rule file. -/
theorem exists_nameOf_iff_validate [PatternLanguage] {c : Config} (h : c.validate = .ok ()) :
    (∃ name, nameOf tag = .ok name) ↔ { c with version := tag }.validate = .ok () := by
  obtain ⟨hsupport, hconfidence, hprefixes, hmatcher, -⟩ := Config.validate_eq_ok_iff.mp h
  rw [exists_nameOf_iff, Config.validate_eq_ok_iff]
  exact ⟨fun htag => ⟨hsupport, hconfidence, hprefixes, hmatcher, htag⟩, fun h => h.2.2.2.2⟩

/-- The other condition on a version that is read off a name. -/
theorem one_lt_utf8ByteSize_iff (h : isVersionTag tag = true) :
    1 < tag.utf8ByteSize ↔ tag ≠ "v" := by
  obtain ⟨rest, rfl⟩ := isVersionTag_iff.mp h
  have hv : "v".utf8ByteSize = 1 := by decide
  rw [String.utf8ByteSize_append, hv, Nat.lt_add_right_iff_pos, Nat.pos_iff_ne_zero, ne_eq,
    String.utf8ByteSize_eq_zero_iff, ← String.toList_inj, ne_eq, ← String.toList_inj]
  simp

/-- The versions that are read off names are those whose rule files have the names, but for the
version that is only a small v. -/
theorem versionOf?_eq_some_iff :
    versionOf? name = some tag ↔ nameOf tag = .ok name ∧ tag ≠ "v" := by
  rw [nameOf_eq_ok_iff]
  simp only [versionOf?, Option.bind_eq_bind, Option.bind_eq_some_iff,
    List.isPrefixOf?_eq_some_iff_append_eq, List.isSuffixOf?_eq_some_iff_append_eq,
    Option.ite_none_right_eq_some, Bool.and_eq_true, decide_eq_true_eq, Option.some.injEq]
  constructor
  · rintro ⟨rest, hrest, middle, rfl, ⟨hsize, htag⟩, rfl⟩
    refine ⟨⟨htag, ?_⟩, (one_lt_utf8ByteSize_iff htag).mp hsize⟩
    rw [← String.toList_inj, ← hrest]
    simp
  · rintro ⟨⟨htag, rfl⟩, hne⟩
    refine ⟨tag.toList ++ nameEnd.toList, by simp, tag.toList, rfl, ⟨?_, ?_⟩, ?_⟩
    · rwa [String.ofList_toList, one_lt_utf8ByteSize_iff htag]
    · rwa [String.ofList_toList]
    · rw [String.ofList_toList]

end RuleFile

end UsageRules
