import Mathlib.Data.List.Nodup
import UsageRules.Fact
import UsageRules.Proofs.Frequent.RankSearch
import UsageRules.Proofs.Support

/-! Mining is exact: the frequent item sets of a list of transactions are reported, each once and
with its support, and nothing else is (`mineFrequent_exact`). Item sets of frequent items and
ascending lists of ranks determine each other (`itemsOf_pathOf`, `pathOf_itemsOf`), and the weight
of ranks is the support of their items. An index of the transactions gives the same counts
(`SupportIndex.support_exact`). -/

namespace UsageRules

namespace Mining

/-! ## Items and ranks -/

section RankedItems

variable {transactions : List ItemSet} {minSupport : Nat}

theorem rankedItems_perm (transactions : List ItemSet) (minSupport : Nat) :
    (rankedItems transactions minSupport).Perm
      ((SortedSet.ofList (transactions.flatMap (·.toList))).toList.filter
        (minSupport ≤ itemSupport transactions ·)) := by
  refine ((List.mergeSort_perm ..).map Prod.fst).trans (.of_eq ?_)
  rw [List.filter_map, List.map_map]
  simp [Function.comp_def]

theorem mem_rankedItems {item : String} :
    item ∈ rankedItems transactions minSupport ↔
      (∃ t ∈ transactions, item ∈ t) ∧ minSupport ≤ itemSupport transactions item := by
  rw [(rankedItems_perm ..).mem_iff]
  simp [SortedSet.mem_toList]

theorem nodup_rankedItems : (rankedItems transactions minSupport).Nodup := by
  rw [(rankedItems_perm ..).nodup_iff]
  exact (SortedSet.nodup_toList _).filter _

/-- The items of a set of enough support are ranked. -/
theorem mem_rankedItems_of_le (hpos : 0 < minSupport) {items : ItemSet}
    (h : minSupport ≤ supportIn transactions items) {item : String} (hitem : item ∈ items) :
    item ∈ rankedItems transactions minSupport := by
  have hle := Nat.le_trans h (supportIn_le_itemSupport hitem transactions)
  obtain ⟨t, ht, hmem⟩ := List.countP_pos_iff.mp (Nat.lt_of_lt_of_le hpos hle)
  exact mem_rankedItems.mpr ⟨⟨t, ht, of_decide_eq_true hmem⟩, hle⟩

end RankedItems

variable {ranked : List String}

theorem mem_pathOf {items : ItemSet} {rank : Nat} :
    rank ∈ pathOf ranked items ↔ ∃ item, ranked[rank]? = some item ∧ item ∈ items := by
  simp only [pathOf, List.mem_map, List.mem_filter, decide_eq_true_eq]
  constructor
  · rintro ⟨⟨item, rank⟩, ⟨h, hitem⟩, rfl⟩
    exact ⟨item, List.mk_mem_zipIdx_iff_getElem?.mp h, hitem⟩
  · rintro ⟨item, h, hitem⟩
    exact ⟨(item, rank), ⟨List.mk_mem_zipIdx_iff_getElem?.mpr h, hitem⟩, rfl⟩

theorem ascending_pathOf (items : ItemSet) : (pathOf ranked items).Pairwise (· < ·) := by
  have hsub : (pathOf ranked items).Sublist (ranked.zipIdx.map Prod.snd) :=
    (List.filter_sublist ..).map Prod.snd
  refine List.Pairwise.sublist hsub ?_
  rw [List.zipIdx_map_snd]
  exact List.pairwise_lt_range' 1

theorem mem_itemsOf {ranks : List Nat} {item : String} :
    item ∈ itemsOf ranked ranks ↔ ∃ rank ∈ ranks, ranked[rank]? = some item := by
  simp [itemsOf]

theorem itemsOf_pathOf {items : ItemSet} (h : ∀ item ∈ items, item ∈ ranked) :
    itemsOf ranked (pathOf ranked items) = items := by
  ext item
  simp only [mem_itemsOf, mem_pathOf]
  constructor
  · rintro ⟨rank, ⟨item', h1, hitem⟩, h2⟩
    rw [h1] at h2
    cases h2
    exact hitem
  · intro hitem
    obtain ⟨rank, hrank⟩ := List.mem_iff_getElem?.mp (h item hitem)
    exact ⟨rank, ⟨item, hrank, hitem⟩, hrank⟩

theorem pathOf_itemsOf (hnodup : ranked.Nodup) {ranks : List Nat}
    (hascending : ranks.Pairwise (· < ·)) (hlt : ∀ rank ∈ ranks, rank < ranked.length) :
    pathOf ranked (itemsOf ranked ranks) = ranks := by
  apply SortedSet.ascending_ext (ascending_pathOf _) hascending
  intro rank
  simp only [mem_pathOf, mem_itemsOf]
  constructor
  · rintro ⟨item, h1, rank', hrank', h2⟩
    rw [← h1] at h2
    rwa [(List.getElem?_inj (hlt rank' hrank') hnodup).mp h2] at hrank'
  · intro hrank
    exact ⟨_, List.getElem?_eq_getElem (hlt rank hrank), rank, hrank,
      List.getElem?_eq_getElem (hlt rank hrank)⟩

/-- A transaction contains the items of some ranks if its path contains the ranks. -/
theorem itemsOf_subset_iff {ranks : List Nat} (hlt : ∀ rank ∈ ranks, rank < ranked.length)
    (transaction : ItemSet) :
    itemsOf ranked ranks ⊆ transaction ↔ ∀ rank ∈ ranks, rank ∈ pathOf ranked transaction := by
  simp only [SortedSet.subset_iff, mem_itemsOf, mem_pathOf]
  constructor
  · intro h rank hrank
    have hget := List.getElem?_eq_getElem (hlt rank hrank)
    exact ⟨_, hget, h _ ⟨rank, hrank, hget⟩⟩
  · rintro h item ⟨rank, hrank, hget⟩
    obtain ⟨item', hget', hitem⟩ := h rank hrank
    rw [hget] at hget'
    cases hget'
    exact hitem

/-! ## Weights and supports -/

/-- The weighted paths of transactions. -/
def weightedPaths (ranked : List String) (transactions : List ItemSet) : List WeightedPath :=
  ((transactions.map (pathOf ranked)).filter (!·.isEmpty)).map (⟨·, 1⟩)

theorem ascending_weightedPaths {transactions : List ItemSet} :
    ∀ p ∈ weightedPaths ranked transactions, p.ranks.Pairwise (· < ·) := by
  intro p hp
  obtain ⟨path, hpath, rfl⟩ := List.mem_map.mp hp
  obtain ⟨t, -, rfl⟩ := List.mem_map.mp (List.mem_filter.mp hpath).1
  exact ascending_pathOf t

open WeightedPath in
theorem weightContaining_weightedPaths {ranks : List Nat} (hne : ranks ≠ [])
    (transactions : List ItemSet) :
    weightContaining (weightedPaths ranked transactions) ranks =
      transactions.countP fun t => decide (∀ rank ∈ ranks, rank ∈ pathOf ranked t) := by
  induction transactions with
  | nil => rfl
  | cons t transactions ih =>
    have hpath : (∀ rank ∈ ranks, rank ∈ pathOf ranked t) → pathOf ranked t ≠ [] := by
      intro h hnil
      obtain ⟨rank, hrank⟩ := List.exists_mem_of_ne_nil ranks hne
      exact List.not_mem_nil (hnil ▸ h rank hrank)
    simp only [weightContaining, weightedPaths, List.map_cons, List.countP_cons] at ih ⊢
    rw [← ih, Nat.add_comm]
    by_cases hempty : pathOf ranked t = []
    · have hnot : ¬∀ rank ∈ ranks, rank ∈ ([] : List Nat) :=
        fun h => hpath (hempty ▸ h) hempty
      simp only [hnot, decide_false, Bool.false_eq_true, if_false, hempty, List.filter_cons,
        List.isEmpty_nil, Bool.not_true, Nat.zero_add]
    · simp [hempty]

/-- The weight of ranks is the support of their items. -/
theorem weightContaining_eq_supportIn {ranks : List Nat} (hne : ranks ≠ [])
    (hlt : ∀ rank ∈ ranks, rank < ranked.length) (transactions : List ItemSet) :
    WeightedPath.weightContaining (weightedPaths ranked transactions) ranks =
      supportIn transactions (itemsOf ranked ranks) := by
  rw [weightContaining_weightedPaths hne]
  apply List.countP_congr
  intro t _
  simp only [decide_eq_true_eq, itemsOf_subset_iff hlt]

/-- Ranks that paths of some weight contain are ranks of items. -/
theorem lt_length_of_weightContaining_pos {transactions : List ItemSet} {ranks : List Nat}
    (h : 0 < WeightedPath.weightContaining (weightedPaths ranked transactions) ranks) :
    ∀ rank ∈ ranks, rank < ranked.length := by
  intro rank hrank
  obtain ⟨p, hp, hall⟩ := WeightedPath.exists_of_weightWhere_pos h
  obtain ⟨path, hpath, rfl⟩ := List.mem_map.mp hp
  obtain ⟨t, -, rfl⟩ := List.mem_map.mp (List.mem_filter.mp hpath).1
  have hmem : rank ∈ pathOf ranked t := by
    simpa using List.all_eq_true.mp hall rank hrank
  obtain ⟨item, hget, -⟩ := mem_pathOf.mp hmem
  exact (List.getElem?_eq_some_iff.mp hget).1

/-! ## The patterns of the tree -/

/-- The patterns that are found among transactions. -/
def patterns (minSupport : Nat) (transactions : List ItemSet) : List RankedPattern :=
  let paths := weightedPaths (rankedItems transactions minSupport) transactions
  ((PrefixTree.build paths minSupport).mineAll minSupport).toList

section Patterns

variable {minSupport : Nat} (hpos : 0 < minSupport) {transactions : List ItemSet}
include hpos

theorem mem_patterns {p : RankedPattern} :
    p ∈ patterns minSupport transactions ↔
      p.ranks ≠ [] ∧ p.ranks.Pairwise (· < ·) ∧
        (∀ rank ∈ p.ranks, rank < (rankedItems transactions minSupport).length) ∧
        p.support = supportIn transactions
          (itemsOf (rankedItems transactions minSupport) p.ranks) ∧
        minSupport ≤ p.support := by
  rw [patterns, PrefixTree.mem_mineAll hpos ascending_weightedPaths]
  constructor
  · rintro ⟨hne, hrise, hsupport, hle⟩
    have hlt := lt_length_of_weightContaining_pos (hsupport ▸ Nat.lt_of_lt_of_le hpos hle)
    exact ⟨hne, hrise, hlt, hsupport.trans (weightContaining_eq_supportIn hne hlt _), hle⟩
  · rintro ⟨hne, hrise, hlt, hsupport, hle⟩
    exact ⟨hne, hrise, hsupport.trans (weightContaining_eq_supportIn hne hlt _).symm, hle⟩

/-- Patterns with the same items are the same. -/
theorem eq_of_itemsOf_eq {p q : RankedPattern} (hp : p ∈ patterns minSupport transactions)
    (hq : q ∈ patterns minSupport transactions)
    (h : itemsOf (rankedItems transactions minSupport) p.ranks =
      itemsOf (rankedItems transactions minSupport) q.ranks) : p = q := by
  obtain ⟨-, hrise, hlt, hsupport, -⟩ := (mem_patterns hpos).mp hp
  obtain ⟨-, hrise', hlt', hsupport', -⟩ := (mem_patterns hpos).mp hq
  have hranks : p.ranks = q.ranks := by
    rw [← pathOf_itemsOf nodup_rankedItems hrise hlt, h,
      pathOf_itemsOf nodup_rankedItems hrise' hlt']
  cases p
  cases q
  simp_all

end Patterns

end Mining

/-! ## The frequent sets -/

section MineFrequent

open Mining

variable {minSupport : Nat} {transactions : List ItemSet}

theorem threshold_pos (minSupport : Nat) : 0 < threshold minSupport :=
  Nat.lt_of_lt_of_le Nat.one_pos (Nat.le_max_right minSupport 1)

theorem mineFrequent_perm (minSupport : Nat) (transactions : List ItemSet) :
    (mineFrequent minSupport transactions).Perm
      ((patterns (threshold minSupport) transactions).map fun p =>
        { items := itemsOf (rankedItems transactions (threshold minSupport)) p.ranks
          frequency := p.support }) := by
  refine (List.mergeSort_perm ..).trans (.of_eq ?_)
  rw [patterns, weightedPaths]

/-- The sets that are reported are the frequent ones, each with its support. -/
theorem mem_mineFrequent {f : FrequentSet} :
    f ∈ mineFrequent minSupport transactions ↔
      f.items.isEmpty = false ∧ threshold minSupport ≤ supportIn transactions f.items ∧
        f = { items := f.items, frequency := supportIn transactions f.items } := by
  have hpos := threshold_pos minSupport
  rw [(mineFrequent_perm ..).mem_iff, List.mem_map]
  constructor
  · rintro ⟨p, hp, rfl⟩
    obtain ⟨hne, -, hlt, hsupport, hle⟩ := (mem_patterns hpos).mp hp
    obtain ⟨rank, hrank⟩ := List.exists_mem_of_ne_nil _ hne
    refine ⟨?_, hsupport ▸ hle, by rw [← hsupport]⟩
    exact List.isEmpty_eq_false_iff_exists_mem.mpr
      ⟨_, mem_itemsOf.mpr ⟨rank, hrank, List.getElem?_eq_getElem (hlt rank hrank)⟩⟩
  · rintro ⟨hne, hle, heq⟩
    have hranked := itemsOf_pathOf fun item hitem => mem_rankedItems_of_le hpos hle hitem
    refine ⟨⟨pathOf (rankedItems transactions (threshold minSupport)) f.items,
      supportIn transactions f.items⟩, (mem_patterns hpos).mpr ⟨?_, ascending_pathOf _, ?_, ?_,
        hle⟩, ?_⟩
    · intro (hnil : pathOf _ f.items = [])
      obtain ⟨item, hitem⟩ := List.isEmpty_eq_false_iff_exists_mem.mp hne
      rw [hnil] at hranked
      rw [SortedSet.mem_toList, ← hranked, mem_itemsOf] at hitem
      simp at hitem
    · intro rank hrank
      obtain ⟨item, hget, -⟩ := mem_pathOf.mp hrank
      exact (List.getElem?_eq_some_iff.mp hget).1
    · rw [hranked]
    · rw [hranked]
      exact heq.symm

/-- No set is reported twice. -/
theorem nodup_items_mineFrequent :
    ((mineFrequent minSupport transactions).map (·.items)).Nodup := by
  have hpos := threshold_pos minSupport
  rw [((mineFrequent_perm ..).map (·.items)).nodup_iff, List.map_map]
  refine List.Nodup.map_on (fun p hp q hq h => eq_of_itemsOf_eq hpos hp hq h) ?_
  exact PrefixTree.nodup_mineAll hpos ascending_weightedPaths

/-! ## Order -/

theorem ItemSet.sizeThenItems_trans (a b c : ItemSet) (hab : a.sizeThenItems b = true)
    (hbc : b.sizeThenItems c = true) : a.sizeThenItems c = true := by
  simp only [sizeThenItems, Bool.or_eq_true, Bool.and_eq_true, decide_eq_true_eq,
    List.not_lt] at *
  rcases hab with hab | ⟨hab, hle⟩
  · left
    omega
  · rcases hbc with hbc | ⟨hbc, hle'⟩
    · left
      omega
    · exact .inr ⟨hab.trans hbc, List.le_trans hle hle'⟩

theorem ItemSet.sizeThenItems_total (a b : ItemSet) :
    (a.sizeThenItems b || b.sizeThenItems a) = true := by
  simp only [sizeThenItems, Bool.or_eq_true, Bool.and_eq_true, decide_eq_true_eq, List.not_lt]
  rcases Nat.lt_trichotomy a.size b.size with h | h | h
  · exact .inl (.inl h)
  · rcases List.le_total a.toList b.toList with hle | hle
    · exact .inl (.inr ⟨h, hle⟩)
    · exact .inr (.inr ⟨h.symm, hle⟩)
  · exact .inr (.inl h)

/-- Sets are reported in strictly ascending order of size and then of items. -/
theorem ascending_mineFrequent :
    (mineFrequent minSupport transactions).Pairwise fun f g =>
      f.size < g.size ∨ f.size = g.size ∧ f.items.toList < g.items.toList := by
  have hsorted : (mineFrequent minSupport transactions).Pairwise fun f g =>
      ItemSet.sizeThenItems f.items g.items = true :=
    List.pairwise_mergeSort (fun f g h => ItemSet.sizeThenItems_trans f.items g.items h.items)
      (fun f g => ItemSet.sizeThenItems_total f.items g.items) _
  have hne : (mineFrequent minSupport transactions).Pairwise fun f g => f.items ≠ g.items :=
    List.pairwise_map.mp nodup_items_mineFrequent
  refine hsorted.imp₂ (fun f g h hne => ?_) hne
  simp only [ItemSet.sizeThenItems, Bool.or_eq_true, Bool.and_eq_true, decide_eq_true_eq] at h
  exact h.imp_right fun ⟨hsize, hle⟩ => ⟨hsize, ItemSet.lt_of_not_lt hne hle⟩

/-- In a list without repeated keys a key has one entry. -/
theorem filter_key_eq_singleton {α β : Type} [DecidableEq β] {key : α → β} {l : List α}
    (hnodup : (l.map key).Nodup) {a : α} (ha : a ∈ l) : l.filter (key · = key a) = [a] := by
  induction l with
  | nil => exact absurd ha List.not_mem_nil
  | cons b l ih =>
    obtain ⟨hb, hl⟩ := List.nodup_cons.mp hnodup
    rcases List.mem_cons.mp ha with rfl | ha
    · have hnone : l.filter (key · = key a) = [] :=
        List.filter_eq_nil_iff.mpr fun c hc heq =>
          hb (of_decide_eq_true heq ▸ List.mem_map_of_mem hc)
      simp [hnone]
    · have hne : key b ≠ key a := fun h => hb (h ▸ List.mem_map_of_mem ha)
      simp [hne, ih hl ha]

/-- Mining reports exactly one entry for every non-empty item set that at least `minSupport`
transactions and at least one contain, with the number of these, and no other entry, in strictly
ascending order of size and then of items. -/
theorem mineFrequent_exact (minSupport : Nat) (transactions : List ItemSet) :
    (∀ items : ItemSet, (mineFrequent minSupport transactions).filter (·.items = items) =
      if items.isEmpty = false ∧ max minSupport 1 ≤ supportIn transactions items then
        [{ items, frequency := supportIn transactions items }]
      else []) ∧
    (mineFrequent minSupport transactions).Pairwise fun f g =>
      f.size < g.size ∨ f.size = g.size ∧ f.items.toList < g.items.toList := by
  refine ⟨fun items => ?_, ascending_mineFrequent⟩
  split
  · rename_i h
    have hmem : ({ items, frequency := supportIn transactions items } : FrequentSet) ∈
        mineFrequent minSupport transactions := mem_mineFrequent.mpr ⟨h.1, h.2, rfl⟩
    exact filter_key_eq_singleton nodup_items_mineFrequent hmem
  · rename_i h
    apply List.filter_eq_nil_iff.mpr
    intro f hf hitems
    obtain ⟨hne, hle, -⟩ := mem_mineFrequent.mp hf
    rw [of_decide_eq_true hitems] at hne hle
    exact h ⟨hne, hle⟩

end MineFrequent

/-! ## Counting again -/

/-- A health check with a scope. -/
def scopedHealthCheck : ItemSet := .ofList [
  Fact.text "Class" "annotatedWith" "Annotation_ApplicationScoped",
  Fact.text "Class" "implements" "Class_HealthCheck"]

/-- Classes of which two are health checks with a scope and one has no facts at all. -/
def scopedClasses : List ItemSet := [
  scopedHealthCheck, .singleton (Fact.text "Class" "annotatedWith" "Annotation_ApplicationScoped"),
  ∅, scopedHealthCheck]

namespace SupportIndex

/-- The index counts the transactions that contain all listed items, whatever their order and
however often each is listed; the empty list is contained in all of them. It agrees with the
frequencies that are mined from the transactions. -/
theorem support_exact (transactions : List ItemSet) :
    (∀ items : List String, (build transactions).support items =
      transactions.countP fun t => decide (∀ item ∈ items, item ∈ t)) ∧
      (build transactions).support [] = transactions.length ∧
      ∀ minSupport, ∀ f ∈ mineFrequent minSupport transactions, ∀ items : List String,
        (∀ item, item ∈ items ↔ item ∈ f.items) →
          (build transactions).support items = f.frequency := by
  refine ⟨fun items => ?_, (indexes_build transactions).count_eq,
    fun minSupport f hf items h => ?_⟩
  · rw [support_build]
    apply List.countP_congr
    intro t _
    simp
  · obtain ⟨-, -, heq⟩ := mem_mineFrequent.mp hf
    rw [support_build_of_mem_iff h, heq]

theorem support_of_scopedClasses :
    { items := scopedHealthCheck, frequency := 2 } ∈ mineFrequent 2 scopedClasses ∧
      (build scopedClasses).support [
        Fact.text "Class" "implements" "Class_HealthCheck",
        Fact.text "Class" "annotatedWith" "Annotation_ApplicationScoped",
        Fact.text "Class" "implements" "Class_HealthCheck"] = 2 := by
  have hsupport : supportIn scopedClasses scopedHealthCheck = 2 := by decide +kernel
  have hmined : { items := scopedHealthCheck, frequency := 2 } ∈ mineFrequent 2 scopedClasses :=
    mem_mineFrequent.mpr ⟨by decide +kernel, by rw [hsupport]; decide, by rw [hsupport]⟩
  refine ⟨hmined, (support_exact scopedClasses).2.2 2 _ hmined _ fun item => ?_⟩
  simp only [scopedHealthCheck, SortedSet.mem_ofList, List.mem_cons, List.not_mem_nil, or_false]
  constructor
  · rintro (h | h | h)
    · exact .inr h
    · exact .inl h
    · exact .inr h
  · rintro (h | h)
    · exact .inr (.inl h)
    · exact .inl h

end SupportIndex

end UsageRules
