import UsageRules.Proofs.Frequent.TreeWeights

/-! What a built tree says of the paths it was built from (`countsPaths_build`): the header has the
ranks whose paths weigh enough, the nodes of a rank count the paths that contain it, by the ranks
above, and every way up ends below the root. -/

namespace UsageRules

namespace PrefixTree

open WeightedPath

/-- Going up from a place, parent by parent, ends at the root after the ranks of `path`. -/
inductive Climbs (t : PrefixTree) : Option Nat → List Nat → Prop where
  | root : Climbs t none []
  | node {i : Nat} {n : PrefixNode} {path : List Nat} (hn : t.nodes[i]? = some n)
      (h : Climbs t n.parent path) : Climbs t (some i) (path ++ [n.rank])

/-- What the tree of weighted paths has to say of them. -/
structure CountsPaths (paths : List WeightedPath) (minSupport : Nat) (t : PrefixTree) : Prop where
  /-- The header has the ranks whose paths weigh enough, and that weight. -/
  support_eq : ∀ rank, (t.header.get? rank).map (·.support) =
    if minSupport ≤ weightContaining paths [rank] then some (weightContaining paths [rank])
    else none
  /-- Under a rank its nodes are listed, each once. -/
  mem_nodes_iff : ∀ rank entry, t.header.get? rank = some entry →
    entry.nodes.Nodup ∧ ∀ i, i ∈ entry.nodes ↔ ∃ n, t.nodes[i]? = some n ∧ n.rank = rank
  /-- The nodes of a rank below some smaller ranks count the paths that contain all of them. -/
  total_eq : ∀ rank entry, t.header.get? rank = some entry →
    ∀ above : List Nat, (∀ r ∈ above, r ∈ t.ranks ∧ r < rank) →
      total ((entry.nodes.filter fun i => ∀ r ∈ above, r ∈ t.prefixPath i).map t.countAt) =
        weightContaining paths (above ++ [rank])
  /-- Parents have smaller numbers, and going up ends after ascending ranks. -/
  climbs : ∀ i n, t.nodes[i]? = some n → (∀ j, n.parent = some j → j < i) ∧
    t.Climbs n.parent (t.prefixPath i) ∧ (t.prefixPath i ++ [n.rank]).Pairwise (· < ·)
  /-- A node is known by its rank and the ranks above. -/
  eq_of_prefixPath_eq : ∀ i j n n', t.nodes[i]? = some n → t.nodes[j]? = some n' →
    n.rank = n'.rank → t.prefixPath i = t.prefixPath j → i = j
  /-- No count is more than all paths weigh. -/
  countAt_le : ∀ i, t.countAt i ≤ total (paths.map weight)

variable {t : PrefixTree} {i rank : Nat}

theorem Rising.climbs (hr : t.Rising) {parent : Option Nat} (h : t.shape i = some (rank, parent)) :
    t.Climbs parent (t.pathTo parent) := by
  induction i using Nat.strongRecOn generalizing rank parent with
  | ind i ih =>
    cases parent with
    | none => exact .root
    | some j =>
      obtain ⟨hj, hc⟩ := hr i rank _ h
      obtain ⟨above, place, hs, -⟩ := hc j rfl
      obtain ⟨n, hn, heq⟩ := Option.map_eq_some_iff.mp hs
      obtain ⟨rfl, rfl⟩ := Prod.mk.inj heq
      rw [hr.pathTo_some hs]
      exact .node hn (ih j (hj j rfl) hs)

/-- Nodes with one path are one node: the path tells the rank and the path to the parent, and a
place has one child of a rank. -/
theorem Rising.eq_of_pathTo_eq (hr : t.Rising) (ht : t.Linked) {j rank' : Nat}
    {parent parent' : Option Nat} (hi : t.shape i = some (rank, parent))
    (hj : t.shape j = some (rank', parent')) (h : t.pathTo (some i) = t.pathTo (some j)) :
    i = j := by
  induction i using Nat.strongRecOn generalizing j rank rank' parent parent' with
  | ind i ih =>
    rw [hr.pathTo_some hi, hr.pathTo_some hj] at h
    obtain ⟨habove, hrank⟩ := List.append_inj' h rfl
    obtain rfl : rank = rank' := (List.cons.inj hrank).1
    obtain ⟨hlt, hc⟩ := hr i rank parent hi
    obtain ⟨-, hc'⟩ := hr j rank parent' hj
    suffices hparent : parent = parent' from ht.shape_inj hi (hparent ▸ hj)
    cases parent with
    | none =>
      cases parent' with
      | none => rfl
      | some k' =>
        obtain ⟨above, place, hs, -⟩ := hc' k' rfl
        rw [hr.pathTo_some hs, pathTo] at habove
        simp at habove
    | some k =>
      obtain ⟨above, place, hs, -⟩ := hc k rfl
      cases parent' with
      | none =>
        rw [hr.pathTo_some hs, pathTo] at habove
        simp at habove
      | some k' =>
        obtain ⟨above', place', hs', -⟩ := hc' k' rfl
        rw [ih k (hlt k rfl) hs hs' habove]

theorem le_total {counts : List Nat} {n : Nat} (h : n ∈ counts) : n ≤ total counts := by
  induction counts with
  | nil => cases h
  | cons m counts ih =>
    rw [total_cons]
    rcases List.mem_cons.mp h with rfl | h
    · omega
    · have := ih h
      omega

section Build

variable {paths : List WeightedPath} (hpaths : ∀ p ∈ paths, p.ranks.Pairwise (· < ·))
  (minSupport : Nat)
include hpaths

/-- The nodes of a kept rank below kept ranks count the paths that contain all of these. -/
theorem total_countAt_build {above : List Nat}
    (hkept : ∀ r ∈ above ++ [rank], r ∈ frequentRanks paths minSupport)
    (hlt : ∀ r ∈ above, r < rank) :
    let t := build paths minSupport
    total (((t.numbersOf rank).filter fun i => ∀ r ∈ above, r ∈ t.prefixPath i).map t.countAt) =
      weightContaining paths (above ++ [rank]) := by
  have hnodes := (rising_build hpaths minSupport).weightWhere_endingIn rank
    fun path => decide (∀ r ∈ above, r ∈ path)
  refine hnodes.symm.trans ((weightWhere_build hpaths minSupport rank _).trans ?_)
  refine weightWhere_congr fun p _ => ?_
  rw [Bool.eq_iff_iff]
  simp only [Bool.and_eq_true, decide_eq_true_eq, List.mem_filter, List.all_eq_true] at hkept ⊢
  constructor
  · rintro ⟨⟨hrank, -⟩, habove⟩ r hr
    rcases List.mem_append.mp hr with hr | hr
    · exact (habove r hr).1.1
    · rwa [List.mem_singleton.mp hr]
  · intro hall
    have hmem {r : Nat} (hr : r ∈ above ++ [rank]) := And.intro (hall r hr) (hkept r hr)
    exact ⟨hmem (by simp), fun r hr => ⟨hmem (List.mem_append_left _ hr), hlt r hr⟩⟩

theorem entry_of_build {entry : HeaderEntry}
    (h : (build paths minSupport).header.get? rank = some entry) :
    entry.nodes = (build paths minSupport).numbersOf rank ∧
      rank ∈ frequentRanks paths minSupport := by
  have hnodes := (linked_build hpaths minSupport).nodesOf_eq rank
  rw [nodesOf, h] at hnodes
  exact ⟨hnodes, (mem_ranks_build hpaths minSupport).mp (SortedMap.mem_keys_iff.mpr ⟨entry, h⟩)⟩

theorem map_support_build (hpos : 0 < minSupport) (rank : Nat) :
    ((build paths minSupport).header.get? rank).map (·.support) =
      if minSupport ≤ weightContaining paths [rank] then some (weightContaining paths [rank])
      else none := by
  have hkept : rank ∈ frequentRanks paths minSupport ↔ _ := mem_frequentRanks_iff_le hpos
  cases h : (build paths minSupport).header.get? rank with
  | none =>
    have hnot : rank ∉ frequentRanks paths minSupport := by
      rw [← mem_ranks_build hpaths, ranks, SortedMap.mem_keys_iff, h]
      simp
    rw [if_neg (mt hkept.mpr hnot), Option.map_none]
  | some entry =>
    have hrank := (entry_of_build hpaths minSupport h).2
    have hsupport := support_build hpaths minSupport rank
    rw [support, h, if_pos hrank] at hsupport
    rw [if_pos (hkept.mp hrank), Option.map_some]
    exact congrArg some hsupport

theorem countAt_build_le (i : Nat) :
    (build paths minSupport).countAt i ≤ total (paths.map weight) := by
  cases hn : (build paths minSupport).nodes[i]? with
  | none =>
    rw [countAt, hn]
    exact Nat.zero_le _
  | some n =>
    have hmem : i ∈ (build paths minSupport).numbersOf n.rank :=
      mem_numbersOf.mpr ⟨_, shape_of_node hn⟩
    refine Nat.le_trans (le_total (List.mem_map_of_mem hmem)) ?_
    rw [← (linked_build hpaths minSupport).support_eq, support_build hpaths]
    split
    · exact weightContaining_le_total paths [n.rank]
    · exact Nat.zero_le _

end Build

/-- The tree of ascending paths counts them. -/
theorem countsPaths_build {paths : List WeightedPath}
    (hpaths : ∀ p ∈ paths, p.ranks.Pairwise (· < ·)) {minSupport : Nat} (hpos : 1 ≤ minSupport) :
    CountsPaths paths minSupport (build paths minSupport) := by
  have hr := rising_build hpaths minSupport
  have ht := linked_build hpaths minSupport
  constructor
  case support_eq => exact map_support_build hpaths minSupport hpos
  case mem_nodes_iff =>
    intro rank entry h
    rw [(entry_of_build hpaths minSupport h).1]
    refine ⟨nodup_numbersOf .., fun i => ?_⟩
    simp [mem_numbersOf, shape]
  case total_eq =>
    intro rank entry h above habove
    obtain ⟨hnodes, hrank⟩ := entry_of_build hpaths minSupport h
    rw [hnodes]
    refine total_countAt_build hpaths minSupport (fun r hr => ?_) fun r hr => (habove r hr).2
    rcases List.mem_append.mp hr with hr | hr
    · exact (mem_ranks_build hpaths minSupport).mp (habove r hr).1
    · rwa [List.mem_singleton.mp hr]
  case climbs =>
    intro i n hn
    have hs := shape_of_node hn
    obtain ⟨hascending, hlt⟩ := hr.pathTo_ascending hs
    rw [hr.prefixPath_eq hs]
    refine ⟨(hr i _ _ hs).1, hr.climbs hs, List.pairwise_append.mpr
      ⟨hascending, List.pairwise_singleton .., fun r hr s hs => ?_⟩⟩
    rw [List.mem_singleton.mp hs]
    exact hlt r hr
  case eq_of_prefixPath_eq =>
    intro i j n n' hn hn' hrank hpath
    have hs := shape_of_node hn
    have hs' := shape_of_node hn'
    rw [hr.prefixPath_eq hs, hr.prefixPath_eq hs'] at hpath
    refine hr.eq_of_pathTo_eq ht hs hs' ?_
    rw [hr.pathTo_some hs, hr.pathTo_some hs', hpath, hrank]
  case countAt_le => exact countAt_build_le hpaths minSupport

/-- Paths of which two go apart and meet in one rank, and one ends in a rank that weighs little. -/
def meetingPaths : List WeightedPath := [⟨[0, 1, 2], 3⟩, ⟨[0, 2], 2⟩, ⟨[1, 3], 1⟩, ⟨[0, 1], 0⟩]

/-- The rank they meet in has two nodes, of which one is below the rank that only one of them has.
-/
theorem countsPaths_meetingPaths :
    (∀ p ∈ meetingPaths, p.ranks.Pairwise (· < ·)) ∧
    (build meetingPaths 2).header.get? 2 = some ⟨5, [2, 3]⟩ ∧
    (build meetingPaths 2).header.get? 3 = none ∧
    total (([2, 3].filter fun i => 1 ∈ (build meetingPaths 2).prefixPath i).map
      (build meetingPaths 2).countAt) = 3 ∧
    (build meetingPaths 2).Climbs (some 1) [0, 1] := by
  have hpaths : ∀ p ∈ meetingPaths, p.ranks.Pairwise (· < ·) := by decide
  have hcounts : CountsPaths meetingPaths 2 (build meetingPaths 2) :=
    countsPaths_build hpaths (by decide)
  have hentry : (build meetingPaths 2).header.get? 2 = some ⟨5, [2, 3]⟩ := by decide +kernel
  refine ⟨hpaths, hentry, by decide +kernel, ?_, ?_⟩
  · have htotal := hcounts.total_eq 2 _ hentry [1] (by decide +kernel)
    simpa using htotal.trans (by decide : _ = 3)
  · have hnode : (build meetingPaths 2).nodes[2]? = some ⟨2, 3, some 1, []⟩ := by decide +kernel
    exact (hcounts.climbs 2 _ hnode).2.1

end PrefixTree

end UsageRules
