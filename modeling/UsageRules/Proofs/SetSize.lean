import Mathlib.Data.List.Basic
import Mathlib.Data.List.Perm.Subperm
import UsageRules.SortedSet

/-! Sizes of sorted sets. A subset is no larger, and of the same size only if it is the whole set
(`SortedSet.eq_of_subset_of_size_le`). -/

namespace UsageRules

namespace SortedSet

variable {α : Type} [LT α] {s t : SortedSet α}

theorem subset_refl (s : SortedSet α) : s ⊆ s := fun _ ha => ha

theorem Subset.trans {u : SortedSet α} (hst : s ⊆ t) (htu : t ⊆ u) : s ⊆ u :=
  fun a ha => htu a (hst a ha)

theorem size_filter_add_size_filter_not (p : α → Bool) (s : SortedSet α) :
    (s.filter p).size + (s.filter (!p ·)).size = s.size :=
  (List.length_eq_length_filter_add p).symm

theorem isEmpty_eq_false_iff : s.isEmpty = false ↔ 0 < s.size := by
  rw [isEmpty, List.isEmpty_eq_false_iff, size, List.length_pos_iff]

variable [TotalOrder α]

theorem size_le_of_subset (h : s ⊆ t) : s.size ≤ t.size :=
  (List.subperm_of_subset (nodup_toList s) h).length_le

theorem eq_of_subset_of_size_le (h : s ⊆ t) (hsize : t.size ≤ s.size) : s = t := by
  have hperm := (List.subperm_of_subset (nodup_toList s) h).perm_of_length_le hsize
  ext a
  exact hperm.mem_iff

theorem subset_antisymm (h : s ⊆ t) (h' : t ⊆ s) : s = t :=
  eq_of_subset_of_size_le h (size_le_of_subset h')

variable [DecidableEq α]

theorem toList_erase (s : SortedSet α) (a : α) : (s.erase a).toList = s.toList.erase a := by
  rw [(nodup_toList s).erase_eq_filter]
  apply List.filter_congr
  intro b _
  by_cases h : b = a <;> simp [h]

theorem size_erase {a : α} (ha : a ∈ s) : (s.erase a).size + 1 = s.size := by
  have hpos : 0 < s.size := List.length_pos_of_mem ha
  rw [size, toList_erase, List.length_erase_of_mem ha]
  exact Nat.sub_add_cancel hpos

theorem isEmpty_erase_eq_false_iff {a : α} (ha : a ∈ s) :
    (s.erase a).isEmpty = false ↔ 2 ≤ s.size := by
  rw [isEmpty_eq_false_iff, ← size_erase ha]
  omega

end SortedSet

end UsageRules
