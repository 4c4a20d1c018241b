import Mathlib.Data.Finset.Card
import Mathlib.Data.Finset.Dedup
import UsageRules.Corpus

/-! Where the transactions of a batch come from. A project gives each of its item sets once, at the
usage where the set is met first (`Usage.distinct_eq_firstUses`), and a usage goes to every part of
the library that its items mention (`Corpus.buckets_eq`). -/

namespace UsageRules

/-! ## First usages -/

namespace Usage

/-- The usages before which none has the same items. -/
def firstUses (usages : List Usage) : List Usage :=
  (usages.zipIdx.filter fun e => (usages.take e.2).all (·.items ≠ e.1.items)).map Prod.fst

theorem firstUses_cons (u : Usage) (usages : List Usage) :
    firstUses (u :: usages) = u :: (firstUses usages).filter (!u.same ·) := by
  have hshift : usages.zipIdx 1 = usages.zipIdx.map fun e => (e.1, e.2 + 1) := by
    rw [List.zipIdx_succ]
  simp only [firstUses, List.zipIdx_cons, Nat.zero_add]
  rw [List.filter_cons_of_pos (by simp), hshift, List.filter_map, List.map_cons, List.map_map,
    List.filter_map, List.filter_filter]
  simp [Function.comp_def, same]

/-- Of usages with the same items the first one is kept. -/
theorem distinct_eq_firstUses (usages : List Usage) : distinct usages = firstUses usages := by
  induction usages with
  | nil => rfl
  | cons u usages ih => rw [distinct, ih, firstUses_cons]

theorem mem_map_items_firstUses {usages : List Usage} {items : ItemSet} :
    items ∈ (firstUses usages).map (·.items) ↔ items ∈ usages.map (·.items) := by
  induction usages with
  | nil => rfl
  | cons u usages ih =>
    simp only [firstUses_cons, List.map_cons, List.mem_cons, ← ih, List.mem_map, List.mem_filter]
    constructor
    · rintro (h | ⟨v, ⟨hv, -⟩, h⟩)
      · exact .inl h
      · exact .inr ⟨v, hv, h⟩
    · rintro (h | ⟨v, hv, rfl⟩)
      · exact .inl h
      · by_cases hsame : u.items = v.items
        · exact .inl hsame.symm
        · exact .inr ⟨v, ⟨hv, by simp [same, hsame]⟩, rfl⟩

theorem nodup_map_items_firstUses (usages : List Usage) :
    ((firstUses usages).map (·.items)).Nodup := by
  induction usages with
  | nil => exact .nil
  | cons u usages ih =>
    rw [firstUses_cons, List.map_cons, List.nodup_cons]
    constructor
    · intro h
      obtain ⟨v, hv, heq⟩ := List.mem_map.mp h
      have hsame := (List.mem_filter.mp hv).2
      simp [same, heq] at hsame
    · exact ih.sublist (List.filter_sublist.map _)

theorem map_items_firstUses_perm (usages : List Usage) :
    ((firstUses usages).map (·.items)).Perm (usages.map (·.items)).dedup := by
  refine (List.perm_ext_iff_of_nodup (nodup_map_items_firstUses usages) (List.nodup_dedup _)).mpr ?_
  intro items
  rw [mem_map_items_firstUses, List.mem_dedup]

/-- There are as many first usages as different item sets. -/
theorem length_firstUses (usages : List Usage) :
    (firstUses usages).length = (usages.map (·.items)).toFinset.card := by
  rw [← List.length_map, (map_items_firstUses_perm usages).length_eq, List.card_toFinset]

end Usage

/-! ## Parts of the library -/

namespace Router

/-- A part of the library is named by an item, which is one of the library's. -/
theorem exists_item_of_mem_keys {router : Router} {items : ItemSet} {key : String}
    (h : key ∈ router.keys items) :
    ∃ item ∈ items, Text.occursIn key item = true ∧
      Text.occursIn router.libraryText item = true := by
  obtain ⟨item, hitem, hkey⟩ := List.mem_flatMap.mp (SortedSet.mem_ofList.mp h)
  obtain ⟨hmem, hlibrary⟩ := List.mem_filter.mp hitem
  exact ⟨item, hmem, router.matcher.occursIn_of_mem hkey, hlibrary⟩

/-- The parts of the library that some of the item sets mention. -/
def keysOfSets (router : Router) (sets : List ItemSet) : SortedSet String :=
  .ofList (sets.flatMap fun items => (router.keys items).toList)

theorem mem_keysOfSets {router : Router} {sets : List ItemSet} {key : String} :
    key ∈ router.keysOfSets sets ↔ ∃ items ∈ sets, key ∈ router.keys items := by
  rw [keysOfSets, SortedSet.mem_ofList, List.mem_flatMap]
  rfl

end Router

/-! ## Buckets -/

namespace Corpus

theorem buckets_eq (router : Router) (usages : List Usage) :
    buckets router usages =
      (router.keysOfSets (usages.map (·.items))).toList.map fun key =>
        (key, usages.filter (key ∈ router.keys ·.items)) := by
  simp only [buckets, Router.keysOfSets, List.flatMap_map, List.filter_map, List.map_map]
  simp [Function.comp_def]

end Corpus

end UsageRules
