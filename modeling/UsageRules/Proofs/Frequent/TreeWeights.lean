import Mathlib.Data.List.Basic
import UsageRules.Proofs.Frequent.TreeLinks

/-! What a prefix tree counts. Adding a path adds its weight to every beginning of it
(`Rising.addPath`), so the nodes of a rank count the paths that contain it, and the paths above them
weigh what these weigh (`weightContaining_conditionalPaths`). -/

namespace UsageRules

namespace PrefixTree

open WeightedPath

/-! ## The weights of nodes -/

/-- The paths to the nodes of a tree, each with the count of its node. -/
def nodePaths (t : PrefixTree) : List WeightedPath :=
  (List.range t.nodes.size).map fun i => ⟨t.pathTo (some i), t.countAt i⟩

variable {t : PrefixTree} {i rank : Nat} {parent : Option Nat}

/-- A weight that is added to one of numbered paths counts for the tests that the path passes. -/
theorem weightWhere_add_at (path : Nat → List Nat) (count : Nat → Nat) (i weight k : Nat)
    (test : List Nat → Bool) :
    weightWhere ((List.range k).map fun j => ⟨path j, count j + if j = i then weight else 0⟩) test =
      weightWhere ((List.range k).map fun j => ⟨path j, count j⟩) test +
        if i < k ∧ test (path i) = true then weight else 0 := by
  induction k with
  | zero => simp
  | succ k ih =>
    simp only [List.range_succ, List.map_append, weightWhere_append, ih, List.map_cons,
      List.map_nil, weightWhere_cons, weightWhere_nil]
    rcases Nat.lt_trichotomy k i with h | rfl | h
    · have h1 : ¬k = i := by omega
      have h2 : ¬i < k := by omega
      have h3 : ¬i < k + 1 := by omega
      simp [h1, h2, h3]
    · by_cases ht : test (path k) = true <;> simp [ht]
      omega
    · have h1 : ¬k = i := by omega
      have h3 : i < k + 1 := by omega
      simp only [h1, h, h3, if_false, true_and, Nat.add_zero]
      omega

/-- The weight is added to the path to the child. -/
theorem Rising.weightWhere_addAt (hr : t.Rising) (ht : t.Linked) (hc : t.Carries parent rank)
    (weight : Nat) (test : List Nat → Bool) :
    weightWhere (t.addAt parent rank weight).1.nodePaths test =
      weightWhere t.nodePaths test +
        if test (t.pathTo parent ++ [rank]) = true then weight else 0 := by
  have hold : ∀ j < t.nodes.size,
      (t.addAt parent rank weight).1.pathTo (some j) = t.pathTo (some j) := fun j hj =>
    hr.pathTo_congr (fun k hk => ht.shape_addAt_of_lt hk weight) fun k hk => by
      cases hk
      exact hj
  have hnew := hr.pathTo_addAt ht hc weight
  rcases ht.addAt_cases parent rank weight with ⟨i, hs, h⟩ | ⟨-, h⟩
  · have hi := lt_size_of_shape hs
    rw [h] at hold ⊢
    have hpaths : (t.addWeight i rank weight).nodePaths =
        (List.range t.nodes.size).map fun j =>
          ⟨t.pathTo (some j), t.countAt j + if j = i then weight else 0⟩ := by
      rw [nodePaths, size_addWeight]
      apply List.map_congr_left
      intro j hj
      rw [hold j (List.mem_range.mp hj), countAt_addWeight _ _ _ hi]
    rw [hpaths, weightWhere_add_at, hr.pathTo_some hs]
    simp [nodePaths, hi]
  · rw [h] at hold hnew ⊢
    have hpaths : ((t.attach parent rank).addWeight t.nodes.size rank weight).nodePaths =
        t.nodePaths ++ [⟨t.pathTo parent ++ [rank], weight⟩] := by
      have hlt : t.nodes.size < (t.attach parent rank).nodes.size := by
        rw [size_attach]
        exact Nat.lt_succ_self _
      rw [nodePaths, size_addWeight, size_attach, List.range_succ, List.map_append,
        List.map_singleton, hnew, countAt_addWeight _ _ _ hlt, countAt_attach, countAt_size,
        if_pos rfl, Nat.zero_add]
      congr 1
      apply List.map_congr_left
      intro j hj
      have hj := List.mem_range.mp hj
      rw [hold j hj, countAt_addWeight _ _ _ hlt, countAt_attach, if_neg (Nat.ne_of_lt hj),
        Nat.add_zero]
    rw [hpaths]
    simp

/-! ## Adding a path -/

/-- How many of the beginnings of a path below `above` pass a test. -/
def countAlong (test : List Nat → Bool) (above : List Nat) : List Nat → Nat
  | [] => 0
  | rank :: ranks =>
    (if test (above ++ [rank]) = true then 1 else 0) + countAlong test (above ++ [rank]) ranks

/-- A path ends in a rank and passes a test above it. -/
def endingIn (rank : Nat) (test : List Nat → Bool) (path : List Nat) : Bool :=
  path.getLast? = some rank && test path.dropLast

/-- Along an ascending path one beginning at most ends in a rank, and the smaller ranks stand in
front of it. -/
theorem countAlong_ending {test : List Nat → Bool} {above ranks : List Nat} {rank : Nat}
    (h : ranks.Pairwise (· < ·)) :
    countAlong (endingIn rank test) above ranks =
      if rank ∈ ranks ∧ test (above ++ ranks.filter (· < rank)) = true then 1 else 0 := by
  induction ranks generalizing above with
  | nil => simp [countAlong]
  | cons r ranks ih =>
    obtain ⟨hr, hranks⟩ := List.pairwise_cons.mp h
    rw [countAlong, ih hranks]
    simp only [endingIn, List.getLast?_concat, List.dropLast_concat]
    rcases Nat.lt_trichotomy r rank with hlt | rfl | hlt
    · have h1 : ¬r = rank := by omega
      simp [h1, Ne.symm h1, hlt]
    · have hnot : ¬r ∈ ranks := fun hmem => Nat.lt_irrefl r (hr r hmem)
      have hnone : ranks.filter (· < r) = [] :=
        List.filter_eq_nil_iff.mpr fun s hs => by
          have := hr s hs
          simp
          omega
      simp [hnot, hnone]
    · have h1 : ¬r = rank := by omega
      have hnot : ¬rank ∈ ranks := fun hmem => by
        have := hr rank hmem
        omega
      simp [h1, Ne.symm h1, hnot]

/-- Adding a path keeps the tree rising and linked, adds the ranks of the path, and adds its weight
to each beginning of the path. -/
theorem Rising.addPath {ranks : List Nat} (hr : t.Rising) (ht : t.Linked)
    (hranks : ranks.Pairwise (· < ·)) (hc : ∀ r ∈ ranks, t.Carries parent r) (weight : Nat) :
    (t.addPath parent weight ranks).Rising ∧ (t.addPath parent weight ranks).Linked ∧
      (∀ r, (∃ i p, (t.addPath parent weight ranks).shape i = some (r, p)) ↔
        (∃ i p, t.shape i = some (r, p)) ∨ r ∈ ranks) ∧
      ∀ test, weightWhere (t.addPath parent weight ranks).nodePaths test =
        weightWhere t.nodePaths test + weight * countAlong test (t.pathTo parent) ranks := by
  induction ranks generalizing t parent with
  | nil => exact ⟨hr, ht, by simp [PrefixTree.addPath], by simp [PrefixTree.addPath, countAlong]⟩
  | cons rank ranks ih =>
    obtain ⟨hrank, hrest⟩ := List.pairwise_cons.mp hranks
    have hcr := hc rank List.mem_cons_self
    have hchild : ∀ r ∈ ranks,
        (t.addAt parent rank weight).1.Carries (some (t.addAt parent rank weight).2) r := by
      intro r hr i hi
      cases hi
      exact ⟨rank, parent, ht.shape_addAt parent rank weight, hrank r hr⟩
    obtain ⟨hrising, hlinked, hmem, hweight⟩ :=
      ih (hr.addAt ht hcr weight) (ht.addAt hcr.lt_size weight) hrest hchild
    refine ⟨hrising, hlinked, fun r => ?_, fun test => ?_⟩
    · rw [PrefixTree.addPath, hmem, ht.exists_rank_addAt, List.mem_cons, or_assoc]
    · rw [PrefixTree.addPath, hweight, hr.weightWhere_addAt ht hcr, hr.pathTo_addAt ht hcr,
        countAlong]
      split
      · rw [Nat.mul_add, Nat.mul_one, Nat.add_assoc]
      · rw [Nat.zero_add, Nat.add_zero]

/-! ## What a tree is built from -/

/-- The paths to be added, without the ranks that are not kept. -/
theorem Rising.foldl_addPath {paths : List WeightedPath} (hr : t.Rising) (ht : t.Linked)
    (hpaths : ∀ p ∈ paths, p.ranks.Pairwise (· < ·)) (kept : List Nat) :
    let t' := paths.foldl (fun t p => t.addPath none p.weight (p.ranks.filter (· ∈ kept))) t
    t'.Rising ∧ t'.Linked ∧
      (∀ r, r ∈ t'.ranks ↔ r ∈ t.ranks ∨ r ∈ kept ∧ ∃ p ∈ paths, r ∈ p.ranks) ∧
      ∀ test, weightWhere t'.nodePaths test = weightWhere t.nodePaths test +
        total (paths.map fun p =>
          p.weight * countAlong test [] (p.ranks.filter (· ∈ kept))) := by
  induction paths generalizing t with
  | nil => exact ⟨hr, ht, by simp, by simp⟩
  | cons p paths ih =>
    have hp := (hpaths p List.mem_cons_self).filter (· ∈ kept)
    obtain ⟨hrising, hlinked, hranks, hweight⟩ :=
      hr.addPath ht hp (fun r _ => carries_root t r) p.weight
    obtain ⟨hrising', hlinked', hranks', hweight'⟩ :=
      ih hrising hlinked fun q hq => hpaths q (List.mem_cons_of_mem _ hq)
    refine ⟨hrising', hlinked', fun r => ?_, fun test => ?_⟩
    · rw [List.foldl_cons, hranks', hlinked.mem_ranks, hranks, ← ht.mem_ranks]
      simp only [List.mem_filter, decide_eq_true_eq, List.mem_cons]
      constructor
      · rintro ((h | ⟨hr, hk⟩) | ⟨hk, q, hq, hr⟩)
        · exact .inl h
        · exact .inr ⟨hk, p, .inl rfl, hr⟩
        · exact .inr ⟨hk, q, .inr hq, hr⟩
      · rintro (h | ⟨hk, q, rfl | hq, hr⟩)
        · exact .inl (.inl h)
        · exact .inl (.inr ⟨hr, hk⟩)
        · exact .inr ⟨hk, q, hq, hr⟩
    · rw [List.foldl_cons, hweight', hweight, List.map_cons, total_cons, Nat.add_assoc]
      rfl

section Build

variable {paths : List WeightedPath} (hpaths : ∀ p ∈ paths, p.ranks.Pairwise (· < ·))
  (minSupport : Nat)
include hpaths

/-- What is kept are the ranks whose paths weigh enough. -/
theorem build_eq : build paths minSupport = paths.foldl (fun t p => t.addPath none p.weight
    (p.ranks.filter (· ∈ frequentRanks paths minSupport))) empty := by
  rw [build]
  refine List.foldl_ext _ _ _ fun t p hp => ?_
  congr 1
  refine List.filter_congr fun rank hrank => ?_
  rw [getD_get?_weights fun q hq => (hpaths q hq).imp Nat.ne_of_lt, decide_eq_decide,
    mem_frequentRanks]
  exact ⟨fun hle => ⟨⟨p, hp, hrank⟩, hle⟩, And.right⟩

theorem rising_build : (build paths minSupport).Rising := by
  rw [build_eq hpaths]
  exact (rising_empty.foldl_addPath linked_empty hpaths _).1

theorem linked_build : (build paths minSupport).Linked := by
  rw [build_eq hpaths]
  exact (rising_empty.foldl_addPath linked_empty hpaths _).2.1

theorem mem_ranks_build {r : Nat} :
    r ∈ (build paths minSupport).ranks ↔ r ∈ frequentRanks paths minSupport := by
  rw [build_eq hpaths]
  refine ((rising_empty.foldl_addPath linked_empty hpaths _).2.2.1 r).trans ?_
  rw [linked_empty.mem_ranks, mem_frequentRanks]
  constructor
  · rintro (⟨i, p, h⟩ | ⟨h, -⟩)
    · simp [shape, empty] at h
    · exact h
  · exact fun h => .inr ⟨h, h.1⟩

/-- The nodes of a rank count the paths that contain it; above them stand the smaller ranks that
are kept. -/
theorem weightWhere_build (rank : Nat) (test : List Nat → Bool) :
    weightWhere (build paths minSupport).nodePaths (endingIn rank test) =
      weightWhere paths fun ranks =>
        let kept := ranks.filter (· ∈ frequentRanks paths minSupport)
        rank ∈ kept && test (kept.filter (· < rank)) := by
  rw [build_eq hpaths]
  refine ((rising_empty.foldl_addPath linked_empty hpaths _).2.2.2 _).trans ?_
  have hempty : nodePaths empty = [] := rfl
  rw [hempty, weightWhere_nil, Nat.zero_add]
  generalize frequentRanks paths minSupport = kept
  induction paths with
  | nil => rfl
  | cons p paths ih =>
    have hp := (hpaths p List.mem_cons_self).filter (· ∈ kept)
    rw [List.map_cons, total_cons, weightWhere_cons,
      ih fun q hq => hpaths q (List.mem_cons_of_mem _ hq)]
    congr 1
    rw [countAlong_ending hp, apply_ite (p.weight * ·), Nat.mul_one, Nat.mul_zero]
    simp

end Build

/-! ## Looking above a rank -/

theorem Rising.getLast?_pathTo (ht : t.Rising) (h : t.shape i = some (rank, parent)) :
    (t.pathTo (some i)).getLast? = some rank := by
  rw [ht.pathTo_some h, List.getLast?_concat]

theorem Rising.dropLast_pathTo (ht : t.Rising) (h : t.shape i = some (rank, parent)) :
    (t.pathTo (some i)).dropLast = t.pathTo parent := by
  rw [ht.pathTo_some h, List.dropLast_concat]

/-- The paths that end in a rank weigh what its nodes count. -/
theorem Rising.weightWhere_endingIn (hr : t.Rising) (rank : Nat) (test : List Nat → Bool) :
    weightWhere t.nodePaths (endingIn rank test) =
      total (((t.numbersOf rank).filter fun i => test (t.prefixPath i)).map t.countAt) := by
  rw [weightWhere, nodePaths, List.filter_map, List.map_map, numbersOf, List.filter_filter]
  congr 2
  refine List.filter_congr fun i hi => ?_
  have hs := shape_of_node (Array.getElem?_eq_getElem (List.mem_range.mp hi))
  simp only [Function.comp, endingIn, hr.getLast?_pathTo hs, hr.dropLast_pathTo hs,
    hr.prefixPath_eq hs, hs, Option.any_some, Option.some.injEq, Bool.and_comm]

/-- The support of a rank is the weight of the paths that end in it. -/
theorem Rising.support_eq (hr : t.Rising) (ht : t.Linked) (rank : Nat) :
    t.support rank = weightWhere t.nodePaths (endingIn rank fun _ => true) := by
  rw [ht.support_eq, hr.weightWhere_endingIn, List.filter_true]

/-- The paths above a rank, node by node. -/
theorem Linked.conditionalPaths_eq (ht : t.Linked) (rank : Nat) :
    t.conditionalPaths rank =
      ((t.numbersOf rank).filter fun i => !(t.prefixPath i).isEmpty).map fun i =>
        ⟨t.prefixPath i, t.countAt i⟩ := by
  rw [conditionalPaths, ht.nodesOf_eq, ← List.filterMap_eq_map, List.filterMap_filter]
  apply List.filterMap_congr
  intro i hi
  obtain ⟨parent, hs⟩ := mem_numbersOf.mp hi
  obtain ⟨n, hn, -⟩ := Option.map_eq_some_iff.mp hs
  rw [hn]
  cases hpath : t.prefixPath i with
  | nil => simp
  | cons r rs => simp [hpath, countAt, hn]

/-- The paths above a rank weigh what the paths weigh that end in it. -/
theorem Rising.weightWhere_conditionalPaths (hr : t.Rising) (ht : t.Linked) (rank : Nat)
    (test : List Nat → Bool) :
    weightWhere (t.conditionalPaths rank) test =
      weightWhere t.nodePaths (endingIn rank fun above => !above.isEmpty && test above) := by
  rw [hr.weightWhere_endingIn, ht.conditionalPaths_eq, weightWhere, List.filter_map, List.map_map,
    List.filter_filter]
  congr 2
  exact List.filter_congr fun i _ => Bool.and_comm ..

theorem Rising.ascending_conditionalPaths (hr : t.Rising) (ht : t.Linked) {rank : Nat}
    {p : WeightedPath} (hp : p ∈ t.conditionalPaths rank) :
    p.ranks.Pairwise (· < ·) ∧ ∀ r ∈ p.ranks, r < rank := by
  rw [ht.conditionalPaths_eq] at hp
  obtain ⟨i, hi, rfl⟩ := List.mem_map.mp hp
  obtain ⟨parent, hs⟩ := mem_numbersOf.mp (List.mem_filter.mp hi).1
  dsimp only
  rw [hr.prefixPath_eq hs]
  exact hr.pathTo_ascending hs

section Build

variable {paths : List WeightedPath} (hpaths : ∀ p ∈ paths, p.ranks.Pairwise (· < ·))
  (minSupport : Nat)
include hpaths

theorem support_build (rank : Nat) :
    (build paths minSupport).support rank =
      if rank ∈ frequentRanks paths minSupport then weightContaining paths [rank] else 0 := by
  rw [(rising_build hpaths minSupport).support_eq (linked_build hpaths minSupport),
    weightWhere_build hpaths]
  split
  · rename_i h
    exact weightWhere_congr fun p _ => by simp [h]
  · rename_i h
    rw [← weightWhere_false paths]
    exact weightWhere_congr fun p _ => by simp [h]

/-- The paths above a rank that contain some smaller ranks weigh what the paths weigh that contain
them and the rank, if all of these are kept. -/
theorem weightContaining_conditionalPaths {rank : Nat} {ranks : List Nat} (hne : ranks ≠ [])
    (hlt : ∀ r ∈ ranks, r < rank) :
    weightContaining ((build paths minSupport).conditionalPaths rank) ranks =
      if ∀ r ∈ rank :: ranks, r ∈ frequentRanks paths minSupport then
        weightContaining paths (rank :: ranks)
      else 0 := by
  rw [weightContaining, (rising_build hpaths minSupport).weightWhere_conditionalPaths
    (linked_build hpaths minSupport), weightWhere_build hpaths]
  obtain ⟨s, hs⟩ := List.exists_mem_of_ne_nil ranks hne
  have habove : ∀ (kept path : List Nat),
      ((path.filter (· ∈ kept)).filter (· < rank)).isEmpty = false ∧
          (∀ r ∈ ranks, (r ∈ path ∧ r ∈ kept) ∧ r < rank) ↔
        ∀ r ∈ ranks, r ∈ path ∧ r ∈ kept := by
    intro kept path
    refine ⟨fun h r hr => (h.2 r hr).1, fun h => ⟨?_, fun r hr => ⟨h r hr, hlt r hr⟩⟩⟩
    refine List.isEmpty_eq_false_iff_exists_mem.mpr ⟨s, ?_⟩
    simp [h s hs, hlt s hs]
  split
  · rename_i h
    apply weightWhere_congr
    intro p _
    rw [Bool.eq_iff_iff]
    have := habove (frequentRanks paths minSupport) p.ranks
    grind
  · rename_i h
    rw [← weightWhere_false paths]
    apply weightWhere_congr
    intro p _
    rw [Bool.eq_false_iff]
    have := habove (frequentRanks paths minSupport) p.ranks
    grind

end Build

end PrefixTree

end UsageRules
