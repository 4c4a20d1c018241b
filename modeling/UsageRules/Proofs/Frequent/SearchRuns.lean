import UsageRules.Proofs.Frequent.RankSearch

/-! Runs of the search of a prefix tree, without a bound on the depth. A run is a finite derivation
by the steps of the search, so the search ends where there is one. In a tree of ascending paths
there is one from every rank, and it ends with what the bounded search finds
(`searches_mineRank_iff`). -/

namespace UsageRules

namespace PrefixTree

open WeightedPath

/-- A run of the search of a tree for one rank after the other, from what was found before to what
is found after. The tree above a rank is searched before the next rank. -/
inductive Searches (minSupport : Nat) : PrefixTree → List Nat → List Nat → Array RankedPattern →
    Array RankedPattern → Prop where
  | done {t suffix found} : Searches minSupport t [] suffix found found
  | absent {t rank ranks suffix found found'} (h : t.header.get? rank = none)
      (rest : Searches minSupport t ranks suffix found found') :
      Searches minSupport t (rank :: ranks) suffix found found'
  | infrequent {t rank ranks suffix entry found found'} (h : t.header.get? rank = some entry)
      (hlt : entry.support < minSupport) (rest : Searches minSupport t ranks suffix found found') :
      Searches minSupport t (rank :: ranks) suffix found found'
  | highest {t rank ranks suffix entry found found'} (h : t.header.get? rank = some entry)
      (hle : minSupport ≤ entry.support) (hnone : t.conditionalPaths rank = [])
      (rest : Searches minSupport t ranks suffix
        (found.push ⟨rank :: suffix, entry.support⟩) found') :
      Searches minSupport t (rank :: ranks) suffix found found'
  | above {t rank ranks suffix entry found found₁ found'} (h : t.header.get? rank = some entry)
      (hle : minSupport ≤ entry.support) (hsome : t.conditionalPaths rank ≠ [])
      (inner : Searches minSupport (build (t.conditionalPaths rank) minSupport)
        (build (t.conditionalPaths rank) minSupport).ranks.toList (rank :: suffix)
        (found.push ⟨rank :: suffix, entry.support⟩) found₁)
      (rest : Searches minSupport t ranks suffix found₁ found') :
      Searches minSupport t (rank :: ranks) suffix found found'

/-- A run has one end only. -/
theorem Searches.unique {minSupport : Nat} {t : PrefixTree} {ranks suffix : List Nat}
    {found a b : Array RankedPattern} (h : Searches minSupport t ranks suffix found a)
    (h' : Searches minSupport t ranks suffix found b) : a = b := by
  induction h generalizing b with
  | done =>
    cases h'
    rfl
  | absent h _ ih =>
    cases h' with
    | absent _ rest => exact ih rest
    | infrequent h' | highest h' | above h' => exact absurd (h.symm.trans h') nofun
  | infrequent h hlt _ ih =>
    cases h' with
    | absent h' => exact absurd (h.symm.trans h') nofun
    | infrequent _ _ rest => exact ih rest
    | highest h' hle | above h' hle =>
      cases h.symm.trans h'
      omega
  | highest h hle hnone _ ih =>
    cases h' with
    | absent h' => exact absurd (h.symm.trans h') nofun
    | infrequent h' hlt =>
      cases h.symm.trans h'
      omega
    | highest h' _ _ rest =>
      cases h.symm.trans h'
      exact ih rest
    | above _ _ hsome => exact absurd hnone hsome
  | above h hle hsome _ _ ihinner ih =>
    cases h' with
    | absent h' => exact absurd (h.symm.trans h') nofun
    | infrequent h' hlt =>
      cases h.symm.trans h'
      omega
    | highest _ _ hnone => exact absurd hnone hsome
    | above h' _ _ inner rest =>
      cases h.symm.trans h'
      cases ihinner inner
      exact ih rest

section Build

variable {minSupport : Nat} {paths : List WeightedPath}

/-- The bounded search is a run, as ranks fall from one tree to the next and the bound with them. -/
theorem searches_foldl (hpaths : ∀ p ∈ paths, p.ranks.Pairwise (· < ·)) {fuel : Nat}
    {ranks : List Nat} (hranks : ∀ r ∈ ranks, r < fuel) (suffix : List Nat)
    (found : Array RankedPattern) :
    Searches minSupport (build paths minSupport) ranks suffix found
      (ranks.foldl (fun found next =>
        (build paths minSupport).mineWithin fuel next suffix minSupport found) found) := by
  induction fuel generalizing paths ranks suffix found with
  | zero =>
    cases ranks with
    | nil => exact .done
    | cons rank ranks => exact absurd (hranks rank List.mem_cons_self) (Nat.not_lt_zero rank)
  | succ fuel ih =>
    induction ranks generalizing found with
    | nil => exact .done
    | cons rank ranks ihranks =>
      obtain ⟨hrank, hrest⟩ := List.forall_mem_cons.mp hranks
      rw [List.foldl_cons, mineWithin]
      cases h : (build paths minSupport).header.get? rank with
      | none => exact .absent h (ihranks hrest _)
      | some entry =>
        dsimp only
        split
        · exact .infrequent h ‹_› (ihranks hrest _)
        · rename_i hle
          split
          · exact .highest h (Nat.le_of_not_lt hle) (List.isEmpty_iff.mp ‹_›) (ihranks hrest _)
          · rename_i hsome
            refine .above h (Nat.le_of_not_lt hle) (mt List.isEmpty_iff.mpr hsome)
              (ih (fun q hq => ascending_conditionalPaths_build hpaths hq) (fun next hnext => ?_) _ _)
              (ihranks hrest _)
            have := lt_of_mem_ranks_conditional hpaths hnext
            omega

/-- The search for a rank ends, with what the bounded search finds. -/
theorem searches_mineRank_iff (hpaths : ∀ p ∈ paths, p.ranks.Pairwise (· < ·)) {rank : Nat}
    {suffix : List Nat} {found found' : Array RankedPattern} :
    Searches minSupport (build paths minSupport) [rank] suffix found found' ↔
      found' = (build paths minSupport).mineRank rank suffix minSupport found := by
  have hbound : ∀ r ∈ [rank], r < rank + 1 := fun r hr => by
    rw [List.mem_singleton.mp hr]
    exact Nat.lt_succ_self rank
  have hrun : Searches minSupport (build paths minSupport) [rank] suffix found
      ((build paths minSupport).mineRank rank suffix minSupport found) :=
    searches_foldl hpaths hbound suffix found
  constructor
  · exact fun h => h.unique hrun
  · rintro rfl
    exact hrun

/-! ## What is found -/

/-- The weight of a pattern is known from its ranks. -/
theorem IsPattern.eq_of_ranks_eq {rank : Nat} {above suffix : List Nat} {p : RankedPattern}
    (h : IsPattern paths minSupport rank suffix p) (hranks : p.ranks = above ++ rank :: suffix) :
    p = ⟨above ++ rank :: suffix, weightContaining paths (above ++ [rank])⟩ := by
  obtain ⟨above', -, -, rfl, -⟩ := h
  rw [(List.append_inj' hranks rfl).1]

/-- Of the ranks of a pattern there is one entry. -/
theorem filter_ranks_minedWithin (hpos : 0 < minSupport)
    (hpaths : ∀ p ∈ paths, p.ranks.Pairwise (· < ·)) {rank : Nat} {above : List Nat}
    (hrise : above.Pairwise (· < ·)) (hlt : ∀ r ∈ above, r < rank) (suffix : List Nat) :
    (minedWithin (rank + 1) (build paths minSupport) rank suffix minSupport).filter
        (·.ranks = above ++ rank :: suffix) =
      if minSupport ≤ weightContaining paths (above ++ [rank]) then
        [⟨above ++ rank :: suffix, weightContaining paths (above ++ [rank])⟩]
      else [] := by
  have hmem {p : RankedPattern} :
      p ∈ minedWithin (rank + 1) (build paths minSupport) rank suffix minSupport ↔
        IsPattern paths minSupport rank suffix p :=
    mem_minedWithin hpos hpaths (Nat.lt_succ_self rank)
  split
  · rename_i hle
    have hnodup := nodup_minedWithin hpos hpaths (Nat.lt_succ_self rank) suffix
    refine List.perm_singleton.mp ((List.perm_ext_iff_of_nodup (hnodup.filter _)
      (List.nodup_singleton _)).mpr fun p => ?_)
    rw [List.mem_filter, hmem, decide_eq_true_eq, List.mem_singleton]
    constructor
    · exact fun ⟨h, hranks⟩ => h.eq_of_ranks_eq hranks
    · rintro rfl
      exact ⟨⟨above, hrise, hlt, rfl, hle⟩, rfl⟩
  · rename_i hle
    refine List.filter_eq_nil_iff.mpr fun p hp hranks => hle ?_
    obtain ⟨_, -, -, -, hsupport⟩ := hmem.mp hp
    rwa [(hmem.mp hp).eq_of_ranks_eq (of_decide_eq_true hranks)] at hsupport

/-- The search of a tree of ascending paths for a rank ends. What was found before stays in front,
and after it stands one entry for each ascending list of smaller ranks that together with the rank
is contained in paths of enough weight, with this weight, and no other entry. -/
theorem mineRank_exact (hpos : 1 ≤ minSupport) (hpaths : ∀ p ∈ paths, p.ranks.Pairwise (· < ·))
    (rank : Nat) (suffix : List Nat) (found : Array RankedPattern) :
    (∀ found', Searches minSupport (build paths minSupport) [rank] suffix found found' ↔
      found' = (build paths minSupport).mineRank rank suffix minSupport found) ∧
    ∃ added : List RankedPattern,
      ((build paths minSupport).mineRank rank suffix minSupport found).toList =
        found.toList ++ added ∧
      (∀ above : List Nat, above.Pairwise (· < ·) → (∀ r ∈ above, r < rank) →
        added.filter (·.ranks = above ++ rank :: suffix) =
          if minSupport ≤ weightContaining paths (above ++ [rank]) then
            [⟨above ++ rank :: suffix, weightContaining paths (above ++ [rank])⟩]
          else []) ∧
      ∀ p ∈ added, ∃ above : List Nat, above.Pairwise (· < ·) ∧ (∀ r ∈ above, r < rank) ∧
        p = ⟨above ++ rank :: suffix, weightContaining paths (above ++ [rank])⟩ ∧
        minSupport ≤ p.support := by
  refine ⟨fun found' => searches_mineRank_iff hpaths,
    minedWithin (rank + 1) (build paths minSupport) rank suffix minSupport,
    mineWithin_toList hpos .., fun above hrise hlt =>
      filter_ranks_minedWithin hpos hpaths hrise hlt suffix, fun p hp => ?_⟩
  exact (mem_minedWithin hpos hpaths (Nat.lt_succ_self rank)).mp hp

/-- Paths of which the last rank has two others above it. -/
def stackedPaths : List WeightedPath := [⟨[0, 1, 2], 2⟩, ⟨[1, 2], 1⟩, ⟨[0, 2], 1⟩, ⟨[3], 5⟩]

/-- The search finds the rank alone and with each of the others, but not with both, as the paths
that contain all three weigh too little. -/
theorem mineRank_stackedPaths :
    1 ≤ 3 ∧ (∀ p ∈ stackedPaths, p.ranks.Pairwise (· < ·)) ∧
    (∀ found', Searches 3 (build stackedPaths 3) [2] [7] #[⟨[9], 4⟩] found' ↔
      found' = #[⟨[9], 4⟩, ⟨[2, 7], 4⟩, ⟨[0, 2, 7], 3⟩, ⟨[1, 2, 7], 3⟩]) := by
  have hpaths : ∀ p ∈ stackedPaths, p.ranks.Pairwise (· < ·) := by decide
  have hfound : (build stackedPaths 3).mineRank 2 [7] 3 #[⟨[9], 4⟩] =
      #[⟨[9], 4⟩, ⟨[2, 7], 4⟩, ⟨[0, 2, 7], 3⟩, ⟨[1, 2, 7], 3⟩] := by decide +kernel
  refine ⟨by decide, hpaths, ?_⟩
  rw [← hfound]
  exact (mineRank_exact (by decide) hpaths 2 [7] #[⟨[9], 4⟩]).1

end Build

end PrefixTree

end UsageRules
