import Mathlib.Data.List.Nodup
import UsageRules.Version

/-! The order of version tags is strict and total, so there is one way to list tags from the oldest
to the newest (`Version.eq_of_pairwise_before`). -/

namespace UsageRules

namespace Version

variable {a b c : String}

/-- The one version comes before the other, and is another one. -/
def Before (a b : String) : Prop := sortKey a < sortKey b ∨ (sortKey a = sortKey b ∧ a < b)

instance : Decidable (Before a b) :=
  inferInstanceAs (Decidable (sortKey a < sortKey b ∨ (sortKey a = sortKey b ∧ a < b)))

theorem Before.irrefl (a : String) : ¬Before a a := by
  rintro (h | ⟨-, h⟩)
  · exact List.lt_irrefl _ h
  · exact String.lt_irrefl _ h

theorem Before.ne (h : Before a b) : a ≠ b := by
  rintro rfl
  exact Before.irrefl a h

theorem Before.trans (hab : Before a b) (hbc : Before b c) : Before a c := by
  rcases hab with hab | ⟨heq, hab⟩
  · rcases hbc with hbc | ⟨heq', -⟩
    · exact .inl (List.lt_trans hab hbc)
    · exact .inl (heq' ▸ hab)
  · rcases hbc with hbc | ⟨heq', hbc⟩
    · exact .inl (heq ▸ hbc)
    · exact .inr ⟨heq.trans heq', String.lt_trans hab hbc⟩

theorem Before.asymm (hab : Before a b) : ¬Before b a := fun hba =>
  Before.irrefl a (hab.trans hba)

theorem before_trichotomy (a b : String) : Before a b ∨ a = b ∨ Before b a := by
  rcases Std.lt_trichotomy (sortKey a) (sortKey b) with h | heq | h
  · exact .inl (.inl h)
  · rcases Std.lt_trichotomy a b with h | h | h
    · exact .inl (.inr ⟨heq, h⟩)
    · exact .inr (.inl h)
    · exact .inr (.inr (.inr ⟨heq.symm, h⟩))
  · exact .inr (.inr (.inl h))

theorem notAfter_iff : notAfter a b = true ↔ a = b ∨ Before a b := by
  simp only [notAfter, Before, Bool.or_eq_true, Bool.and_eq_true, decide_eq_true_eq]
  constructor
  · rintro (h | ⟨heq, h⟩)
    · exact .inr (.inl h)
    · rcases Decidable.em (a = b) with hab | hab
      · exact .inl hab
      · exact .inr (.inr ⟨heq, Std.lt_of_le_of_ne h hab⟩)
  · rintro (rfl | h | ⟨heq, h⟩)
    · exact .inr ⟨rfl, Std.le_refl _⟩
    · exact .inl h
    · exact .inr ⟨heq, Std.le_of_lt h⟩

theorem notAfter_trans (hab : notAfter a b = true) (hbc : notAfter b c = true) :
    notAfter a c = true := by
  rw [notAfter_iff] at *
  rcases hab with rfl | hab
  · exact hbc
  rcases hbc with rfl | hbc
  · exact .inr hab
  · exact .inr (hab.trans hbc)

theorem notAfter_total (a b : String) : (notAfter a b || notAfter b a) = true := by
  rw [Bool.or_eq_true, notAfter_iff, notAfter_iff]
  rcases before_trichotomy a b with h | h | h
  · exact .inl (.inr h)
  · exact .inl (.inl h)
  · exact .inr (.inr h)

/-! ## Lists from the oldest to the newest -/

section
variable {tags tags' : List String}

theorem nodup_of_pairwise_before (h : tags.Pairwise Before) : tags.Nodup := h.imp Before.ne

/-- The same tags have one order only. -/
theorem eq_of_pairwise_before (h : tags.Pairwise Before) (h' : tags'.Pairwise Before)
    (hmem : ∀ tag, tag ∈ tags ↔ tag ∈ tags') : tags = tags' := by
  have hperm : tags.Perm tags' := (List.perm_ext_iff_of_nodup (nodup_of_pairwise_before h)
    (nodup_of_pairwise_before h')).mpr hmem
  exact hperm.eq_of_pairwise (fun _ _ _ _ hab hba => absurd hba hab.asymm) h h'

/-- Of two tags of a list in order the one before the other is the one that comes first. -/
theorem pair_sublist_iff (h : tags.Pairwise Before) (ha : a ∈ tags) (hb : b ∈ tags) :
    [a, b].Sublist tags ↔ Before a b := by
  refine ⟨fun hsub => List.pairwise_pair.mp (h.sublist hsub), fun hab => ?_⟩
  obtain ⟨earlier, later, rfl⟩ := List.append_of_mem ha
  obtain ⟨-, hlater, hearlier⟩ := List.pairwise_append.mp h
  have hmem : b ∈ later := by
    rcases List.mem_append.mp hb with hb | hb
    · exact absurd (hearlier b hb a List.mem_cons_self) hab.asymm
    · exact (List.mem_cons.mp hb).resolve_left hab.ne.symm
  exact ((List.singleton_sublist.mpr hmem).cons_cons a).trans (List.sublist_append_right ..)

end

end Version

end UsageRules
