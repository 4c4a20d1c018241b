import Mathlib.Data.List.Nodup
import UsageRules.Frequent.Mining
import UsageRules.Proofs.Frequent.TreeWeights

/-! The search of a prefix tree by rank. It reports every ascending list of ranks of enough weight
once, with its weight (`mem_minedWithin`, `nodup_minedWithin`): the weight of the ranks above a rank
is the same in the tree of the paths above it as in the paths the tree was built from. -/

namespace UsageRules

namespace PrefixTree

open WeightedPath

/-- What the search for one rank adds to the patterns that were found before. -/
def minedWithin : Nat → PrefixTree → Nat → List Nat → Nat → List RankedPattern
  | 0, _, _, _, _ => []
  | fuel + 1, t, rank, suffix, minSupport =>
    if t.support rank < minSupport then []
    else
      let conditional := build (t.conditionalPaths rank) minSupport
      ⟨rank :: suffix, t.support rank⟩ :: conditional.ranks.toList.flatMap fun next =>
        minedWithin fuel conditional next (rank :: suffix) minSupport

theorem foldl_append_toList {α β : Type} {f : Array β → α → Array β} {g : α → List β}
    (h : ∀ found a, (f found a).toList = found.toList ++ g a) (l : List α) (found : Array β) :
    (l.foldl f found).toList = found.toList ++ l.flatMap g := by
  induction l generalizing found with
  | nil => simp
  | cons a l ih => rw [List.foldl_cons, ih, h, List.flatMap_cons, List.append_assoc]

theorem ranks_build_nil (minSupport : Nat) : (build [] minSupport).ranks = ∅ := rfl

/-- The search leaves what was found before in front. -/
theorem mineWithin_toList {minSupport : Nat} (hpos : 0 < minSupport) (fuel : Nat) (t : PrefixTree)
    (rank : Nat) (suffix : List Nat) (found : Array RankedPattern) :
    (t.mineWithin fuel rank suffix minSupport found).toList =
      found.toList ++ minedWithin fuel t rank suffix minSupport := by
  induction fuel generalizing t rank suffix found with
  | zero => simp [mineWithin, minedWithin]
  | succ fuel ih =>
    rw [mineWithin, minedWithin, support]
    cases t.header.get? rank with
    | none => simp [hpos]
    | some entry =>
      dsimp only [Option.map_some, Option.getD_some]
      split
      · simp
      · split
        · rename_i hempty
          rw [List.isEmpty_iff.mp hempty, ranks_build_nil]
          simp [EmptyCollection.emptyCollection, SortedSet.empty]
        · rw [foldl_append_toList fun found next => ih _ next (rank :: suffix) found]
          simp

theorem mineAll_toList {minSupport : Nat} (hpos : 0 < minSupport) (t : PrefixTree) :
    (t.mineAll minSupport).toList =
      t.ranks.toList.flatMap fun rank => minedWithin (rank + 1) t rank [] minSupport :=
  foldl_append_toList
    (fun found rank => mineWithin_toList hpos (rank + 1) t rank [] found) t.ranks.toList #[]

section Build

variable {minSupport : Nat}

/-- The pattern consists of ranks below `rank`, `rank` and `suffix`; its support is the weight of
the paths that contain the former, and it is enough. -/
def IsPattern (paths : List WeightedPath) (minSupport rank : Nat) (suffix : List Nat)
    (p : RankedPattern) : Prop :=
  ∃ above : List Nat, above.Pairwise (· < ·) ∧ (∀ r ∈ above, r < rank) ∧
    p = ⟨above ++ rank :: suffix, weightContaining paths (above ++ [rank])⟩ ∧
    minSupport ≤ p.support

theorem weightContaining_concat (paths : List WeightedPath) (above : List Nat) (rank : Nat) :
    weightContaining paths (above ++ [rank]) = weightContaining paths (rank :: above) :=
  weightContaining_congr fun r => by simp [or_comm]

/-- The last rank in front of the suffix is read off a pattern. -/
theorem IsPattern.rank_unique {paths : List WeightedPath} {rank rank' : Nat} {suffix : List Nat}
    {p : RankedPattern} (h : IsPattern paths minSupport rank suffix p)
    (h' : IsPattern paths minSupport rank' suffix p) : rank = rank' := by
  obtain ⟨above, -, -, rfl, -⟩ := h
  obtain ⟨above', -, -, heq, -⟩ := h'
  have hranks : above ++ rank :: suffix = above' ++ rank' :: suffix := congrArg (·.ranks) heq
  exact (List.cons.inj (List.append_inj' hranks rfl).2).1

theorem IsPattern.suffix_length_lt {paths : List WeightedPath} {rank : Nat} {suffix : List Nat}
    {p : RankedPattern} (h : IsPattern paths minSupport rank suffix p) :
    suffix.length < p.ranks.length := by
  obtain ⟨above, -, -, rfl, -⟩ := h
  simp only [List.length_append, List.length_cons]
  omega

section Conditional

variable {paths : List WeightedPath} (hpaths : ∀ p ∈ paths, p.ranks.Pairwise (· < ·))
include hpaths

theorem ascending_conditionalPaths_build {rank : Nat} {q : WeightedPath}
    (hq : q ∈ (build paths minSupport).conditionalPaths rank) : q.ranks.Pairwise (· < ·) :=
  ((rising_build hpaths minSupport).ascending_conditionalPaths
    (linked_build hpaths minSupport) hq).1

/-- Ranks fall from one tree to the next. -/
theorem lt_of_mem_ranks_conditional {rank next : Nat}
    (h : next ∈ (build ((build paths minSupport).conditionalPaths rank) minSupport).ranks) :
    next < rank := by
  rw [mem_ranks_build fun q hq => ascending_conditionalPaths_build hpaths hq] at h
  obtain ⟨q, hq, hmem⟩ := (mem_frequentRanks.mp h).1
  exact ((rising_build hpaths minSupport).ascending_conditionalPaths
    (linked_build hpaths minSupport) hq).2 next hmem

end Conditional

/-- A pattern is its last rank alone, or one of the paths above that rank. -/
theorem IsPattern.exists_next (hpos : 0 < minSupport) {paths : List WeightedPath}
    (hpaths : ∀ p ∈ paths, p.ranks.Pairwise (· < ·)) {rank : Nat} {suffix : List Nat}
    {p : RankedPattern} (h : IsPattern paths minSupport rank suffix p) :
    rank ∈ frequentRanks paths minSupport ∧
      (p = ⟨rank :: suffix, weightContaining paths [rank]⟩ ∨
        ∃ next ∈ (build ((build paths minSupport).conditionalPaths rank) minSupport).ranks,
          IsPattern ((build paths minSupport).conditionalPaths rank) minSupport next
            (rank :: suffix) p) := by
  have hasc : ∀ q ∈ (build paths minSupport).conditionalPaths rank, q.ranks.Pairwise (· < ·) :=
    fun q hq => ascending_conditionalPaths_build hpaths hq
  obtain ⟨above, hrise, hlt, rfl, hle⟩ := h
  have hkept {r : Nat} (hr : r ∈ above ++ [rank]) := mem_frequentRanks_of_le hpos hle hr
  refine ⟨hkept (by simp), ?_⟩
  rcases List.eq_nil_or_concat above with rfl | ⟨above, next, rfl⟩
  · exact .inl rfl
  · rw [List.concat_eq_append] at *
    obtain ⟨habove, -, hnext⟩ := List.pairwise_append.mp hrise
    have hne : above ++ [next] ≠ [] := by simp
    have heq := weightContaining_conditionalPaths hpaths minSupport hne hlt
    rw [if_pos fun r hr => hkept (by simpa [or_comm, or_assoc] using hr),
      ← weightContaining_concat] at heq
    refine .inr ⟨next, ?_, above, habove, fun r hr => hnext r hr next (by simp), ?_, hle⟩
    · rw [mem_ranks_build hasc]
      exact mem_frequentRanks_of_le hpos (heq ▸ hle) (by simp)
    · rw [heq, List.append_assoc]
      rfl

/-- Patterns of the paths above a rank become longer by that rank. -/
theorem IsPattern.of_next (hpos : 0 < minSupport) {paths : List WeightedPath}
    (hpaths : ∀ p ∈ paths, p.ranks.Pairwise (· < ·)) {rank next : Nat} {suffix : List Nat}
    {p : RankedPattern}
    (hnext : next ∈ (build ((build paths minSupport).conditionalPaths rank) minSupport).ranks)
    (h : IsPattern ((build paths minSupport).conditionalPaths rank) minSupport next
      (rank :: suffix) p) : IsPattern paths minSupport rank suffix p := by
  obtain ⟨above, hrise, hlt, rfl, hle⟩ := h
  have hnextlt := lt_of_mem_ranks_conditional hpaths hnext
  have hltrank : ∀ r ∈ above ++ [next], r < rank := by
    intro r hr
    rcases List.mem_append.mp hr with hr | hr
    · exact Nat.lt_trans (hlt r hr) hnextlt
    · rwa [List.mem_singleton.mp hr]
  have hne : above ++ [next] ≠ [] := by simp
  have heq := weightContaining_conditionalPaths hpaths minSupport hne hltrank
  have hle' : minSupport ≤ weightContaining ((build paths minSupport).conditionalPaths rank)
    (above ++ [next]) := hle
  split at heq
  · refine ⟨above ++ [next], ?_, hltrank, ?_, hle⟩
    · refine List.pairwise_append.mpr ⟨hrise, List.pairwise_singleton .., ?_⟩
      intro r hr s hs
      rw [List.mem_singleton.mp hs]
      exact hlt r hr
    · rw [weightContaining_concat paths, ← heq, List.append_assoc]
      rfl
  · omega

theorem isPattern_iff (hpos : 0 < minSupport) {paths : List WeightedPath}
    (hpaths : ∀ p ∈ paths, p.ranks.Pairwise (· < ·)) {rank : Nat} {suffix : List Nat}
    {p : RankedPattern} :
    IsPattern paths minSupport rank suffix p ↔
      rank ∈ frequentRanks paths minSupport ∧
        (p = ⟨rank :: suffix, weightContaining paths [rank]⟩ ∨
          ∃ next ∈ (build ((build paths minSupport).conditionalPaths rank) minSupport).ranks,
            IsPattern ((build paths minSupport).conditionalPaths rank) minSupport next
              (rank :: suffix) p) := by
  constructor
  · exact IsPattern.exists_next hpos hpaths
  · rintro ⟨hrank, rfl | ⟨next, hnext, h⟩⟩
    · exact ⟨[], .nil, by simp, rfl, (mem_frequentRanks.mp hrank).2⟩
    · exact h.of_next hpos hpaths hnext

/-- The search for a rank finds the patterns of the paths the tree was built from. -/
theorem mem_minedWithin (hpos : 0 < minSupport) {paths : List WeightedPath}
    (hpaths : ∀ p ∈ paths, p.ranks.Pairwise (· < ·)) {fuel rank : Nat} (hfuel : rank < fuel)
    {suffix : List Nat} {p : RankedPattern} :
    p ∈ minedWithin fuel (build paths minSupport) rank suffix minSupport ↔
      IsPattern paths minSupport rank suffix p := by
  induction fuel generalizing paths rank suffix with
  | zero => exact absurd hfuel (Nat.not_lt_zero rank)
  | succ fuel ih =>
    rw [isPattern_iff hpos hpaths, minedWithin, support_build hpaths]
    by_cases hrank : rank ∈ frequentRanks paths minSupport
    · have hle := (mem_frequentRanks.mp hrank).2
      rw [if_pos hrank, if_neg (Nat.not_lt.mpr hle)]
      simp only [List.mem_cons, List.mem_flatMap, hrank, true_and]
      refine or_congr_right (exists_congr fun next => and_congr_right fun hnext => ?_)
      have hlt := lt_of_mem_ranks_conditional hpaths hnext
      exact ih (fun q hq => ascending_conditionalPaths_build hpaths hq) (by omega)
    · rw [if_neg hrank, if_pos hpos]
      simp [hrank]

/-- No pattern is found twice. -/
theorem nodup_minedWithin (hpos : 0 < minSupport) {paths : List WeightedPath}
    (hpaths : ∀ p ∈ paths, p.ranks.Pairwise (· < ·)) {fuel rank : Nat} (hfuel : rank < fuel)
    (suffix : List Nat) :
    (minedWithin fuel (build paths minSupport) rank suffix minSupport).Nodup := by
  induction fuel generalizing paths rank suffix with
  | zero => exact absurd hfuel (Nat.not_lt_zero rank)
  | succ fuel ih =>
    rw [minedWithin]
    split
    · exact List.nodup_nil
    · have hasc : ∀ q ∈ (build paths minSupport).conditionalPaths rank,
          q.ranks.Pairwise (· < ·) :=
        fun q hq => ascending_conditionalPaths_build hpaths hq
      have hpattern : ∀ next ∈
          (build ((build paths minSupport).conditionalPaths rank) minSupport).ranks.toList,
          next < fuel ∧ ∀ p, p ∈ minedWithin fuel
              (build ((build paths minSupport).conditionalPaths rank) minSupport) next
              (rank :: suffix) minSupport ↔
            IsPattern ((build paths minSupport).conditionalPaths rank) minSupport next
              (rank :: suffix) p := by
        intro next hnext
        have hlt := lt_of_mem_ranks_conditional hpaths hnext
        exact ⟨by omega, fun p => mem_minedWithin hpos hasc (by omega)⟩
      refine List.nodup_cons.mpr ⟨fun hmem => ?_, List.nodup_flatMap.mpr ⟨fun next hnext => ?_, ?_⟩⟩
      · obtain ⟨next, hnext, hmem⟩ := List.mem_flatMap.mp hmem
        exact Nat.lt_irrefl _ (((hpattern next hnext).2 _).mp hmem).suffix_length_lt
      · exact ih hasc (hpattern next hnext).1 (rank :: suffix)
      · refine List.Pairwise.imp_of_mem (fun {next next'} hnext hnext' hlt => ?_)
          (build ((build paths minSupport).conditionalPaths rank) minSupport).ranks.ascending
        intro p hp hp'
        have heq := (((hpattern next hnext).2 p).mp hp).rank_unique
          (((hpattern next' hnext').2 p).mp hp')
        omega

end Build

/-! ## The whole tree -/

section All

variable {minSupport : Nat} (hpos : 0 < minSupport) {paths : List WeightedPath}
  (hpaths : ∀ p ∈ paths, p.ranks.Pairwise (· < ·))
include hpos hpaths

/-- The patterns of a tree are the ascending lists of ranks that are contained in paths of enough
weight, with that weight. -/
theorem mem_mineAll {p : RankedPattern} :
    p ∈ ((build paths minSupport).mineAll minSupport).toList ↔
      p.ranks ≠ [] ∧ p.ranks.Pairwise (· < ·) ∧ p.support = weightContaining paths p.ranks ∧
        minSupport ≤ p.support := by
  rw [mineAll_toList hpos, List.mem_flatMap]
  constructor
  · rintro ⟨rank, -, hp⟩
    obtain ⟨above, hrise, hlt, rfl, hle⟩ :=
      (mem_minedWithin hpos hpaths (Nat.lt_succ_self rank)).mp hp
    refine ⟨by simp, List.pairwise_append.mpr ⟨hrise, List.pairwise_singleton .., ?_⟩, rfl, hle⟩
    intro r hr s hs
    rw [List.mem_singleton.mp hs]
    exact hlt r hr
  · rintro ⟨hne, hrise, hsupport, hle⟩
    obtain ⟨ranks, support⟩ := p
    rcases List.eq_nil_or_concat ranks with rfl | ⟨above, rank, rfl⟩
    · exact absurd rfl hne
    · rw [List.concat_eq_append] at *
      obtain ⟨habove, -, hlt⟩ := List.pairwise_append.mp hrise
      refine ⟨rank, ?_, (mem_minedWithin hpos hpaths (Nat.lt_succ_self rank)).mpr
        ⟨above, habove, fun r hr => hlt r hr rank (by simp), ?_, hle⟩⟩
      · rw [SortedSet.mem_toList, mem_ranks_build hpaths]
        exact mem_frequentRanks_of_le hpos (hsupport ▸ hle) (by simp)
      · exact congrArg _ hsupport

theorem nodup_mineAll : ((build paths minSupport).mineAll minSupport).toList.Nodup := by
  rw [mineAll_toList hpos]
  refine List.nodup_flatMap.mpr ⟨fun rank _ =>
    nodup_minedWithin hpos hpaths (Nat.lt_succ_self rank) [], ?_⟩
  refine (build paths minSupport).ranks.ascending.imp fun {rank rank'} hlt p hp hp' => ?_
  have heq := ((mem_minedWithin hpos hpaths (Nat.lt_succ_self rank)).mp hp).rank_unique
    ((mem_minedWithin hpos hpaths (Nat.lt_succ_self rank')).mp hp')
  omega

end All

end PrefixTree

end UsageRules
