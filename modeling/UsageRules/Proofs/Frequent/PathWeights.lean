import Mathlib.Data.List.Nodup
import UsageRules.Frequent.PrefixTree

/-! How much weighted paths weigh that pass a test, and those that contain some ranks. The more
ranks a path has to contain, the less such paths weigh (`weightContaining_anti`). The weights that
are collected rank by rank are those of the paths that contain the rank (`getD_get?_weights`). -/

namespace UsageRules

theorem total_append (l m : List Nat) : total (l ++ m) = total l + total m := by
  induction l with
  | nil => simp
  | cons n l ih => simp [ih, Nat.add_assoc]

namespace WeightedPath

/-! ## The weight of the paths that pass a test -/

/-- The weight of the paths whose ranks pass a test. -/
def weightWhere (paths : List WeightedPath) (test : List Nat → Bool) : Nat :=
  total ((paths.filter (test ·.ranks)).map weight)

/-- The weight of the paths that contain all of some ranks. -/
def weightContaining (paths : List WeightedPath) (ranks : List Nat) : Nat :=
  weightWhere paths fun path => ranks.all (· ∈ path)

variable {paths : List WeightedPath} {test test' : List Nat → Bool}

@[simp] theorem weightWhere_nil : weightWhere [] test = 0 := rfl

@[simp] theorem weightWhere_cons {p : WeightedPath} :
    weightWhere (p :: paths) test =
      (if test p.ranks then p.weight else 0) + weightWhere paths test := by
  by_cases h : test p.ranks <;> simp [weightWhere, h]

@[simp] theorem weightWhere_append {more : List WeightedPath} :
    weightWhere (paths ++ more) test = weightWhere paths test + weightWhere more test := by
  simp [weightWhere, total_append]

theorem weightWhere_congr (h : ∀ p ∈ paths, test p.ranks = test' p.ranks) :
    weightWhere paths test = weightWhere paths test' := by
  induction paths with
  | nil => rfl
  | cons p paths ih =>
    simp only [weightWhere_cons, h p List.mem_cons_self,
      ih fun q hq => h q (List.mem_cons_of_mem _ hq)]

theorem weightWhere_mono (h : ∀ p ∈ paths, test p.ranks = true → test' p.ranks = true) :
    weightWhere paths test ≤ weightWhere paths test' := by
  induction paths with
  | nil => exact Nat.le_refl 0
  | cons p paths ih =>
    have hp := h p List.mem_cons_self
    have hrest := ih fun q hq => h q (List.mem_cons_of_mem _ hq)
    simp only [weightWhere_cons]
    by_cases ht : test p.ranks = true
    · simp only [ht, hp ht, if_true]
      omega
    · simp only [ht, Bool.false_eq_true, if_false]
      omega

theorem weightWhere_false (paths : List WeightedPath) :
    weightWhere paths (fun _ => false) = 0 := by
  have hnone : paths.filter (fun _ => false) = [] :=
    List.filter_eq_nil_iff.mpr fun _ _ => Bool.false_ne_true
  rw [weightWhere, hnone]
  rfl

/-- A test that paths of some weight pass is passed by one of the paths. -/
theorem exists_of_weightWhere_pos (h : 0 < weightWhere paths test) :
    ∃ p ∈ paths, test p.ranks = true := by
  induction paths with
  | nil => exact absurd h (Nat.lt_irrefl 0)
  | cons p paths ih =>
    by_cases ht : test p.ranks = true
    · exact ⟨p, List.mem_cons_self, ht⟩
    · simp only [weightWhere_cons, ht, Bool.false_eq_true, if_false, Nat.zero_add] at h
      obtain ⟨q, hq, htq⟩ := ih h
      exact ⟨q, List.mem_cons_of_mem _ hq, htq⟩

theorem weightContaining_congr {ranks ranks' : List Nat} (h : ∀ r, r ∈ ranks ↔ r ∈ ranks') :
    weightContaining paths ranks = weightContaining paths ranks' :=
  weightWhere_congr fun p _ => by
    rw [Bool.eq_iff_iff]
    simp [h]

/-- The more ranks a path has to contain, the less the paths weigh that do. -/
theorem weightContaining_anti {ranks ranks' : List Nat} (h : ∀ r ∈ ranks, r ∈ ranks') :
    weightContaining paths ranks' ≤ weightContaining paths ranks :=
  weightWhere_mono fun p _ hp => by
    simp only [List.all_eq_true, decide_eq_true_eq] at hp ⊢
    exact fun r hr => hp r (h r hr)

theorem weightContaining_le_total (paths : List WeightedPath) (ranks : List Nat) :
    weightContaining paths ranks ≤ total (paths.map weight) := by
  induction paths with
  | nil => exact Nat.le_refl 0
  | cons p paths ih =>
    rw [weightContaining] at ih ⊢
    rw [weightWhere_cons, List.map_cons, total_cons]
    split <;> omega

/-! ## The weights of the ranks -/

/-- The ranks whose paths weigh enough. -/
def frequentRanks (paths : List WeightedPath) (minSupport : Nat) : List Nat :=
  (paths.flatMap ranks).filter fun rank => minSupport ≤ weightContaining paths [rank]

theorem mem_frequentRanks {minSupport rank : Nat} :
    rank ∈ frequentRanks paths minSupport ↔
      (∃ p ∈ paths, rank ∈ p.ranks) ∧ minSupport ≤ weightContaining paths [rank] := by
  simp [frequentRanks]

/-- Ranks that are contained in paths of enough weight are kept. -/
theorem mem_frequentRanks_of_le {minSupport : Nat} (hpos : 0 < minSupport) {ranks : List Nat}
    (h : minSupport ≤ weightContaining paths ranks) {r : Nat} (hr : r ∈ ranks) :
    r ∈ frequentRanks paths minSupport := by
  have hle : minSupport ≤ weightContaining paths [r] :=
    Nat.le_trans h (weightContaining_anti fun s hs => by rwa [List.mem_singleton.mp hs])
  obtain ⟨p, hp, hmem⟩ := exists_of_weightWhere_pos (Nat.lt_of_lt_of_le hpos hle)
  exact mem_frequentRanks.mpr ⟨⟨p, hp, by simpa using hmem⟩, hle⟩

theorem mem_frequentRanks_iff_le {minSupport : Nat} (hpos : 0 < minSupport) {rank : Nat} :
    rank ∈ frequentRanks paths minSupport ↔ minSupport ≤ weightContaining paths [rank] :=
  ⟨fun h => (mem_frequentRanks.mp h).2, fun h => mem_frequentRanks_of_le hpos h (by simp)⟩

theorem getD_get?_foldl_update {ranks : List Nat} (hnodup : ranks.Nodup) (weight : Nat)
    (m : SortedMap Nat Nat) (rank : Nat) :
    ((ranks.foldl (fun m r => m.update r fun w => w.getD 0 + weight) m).get? rank).getD 0 =
      (m.get? rank).getD 0 + if rank ∈ ranks then weight else 0 := by
  induction ranks generalizing m with
  | nil => simp
  | cons r ranks ih =>
    obtain ⟨hr, hranks⟩ := List.nodup_cons.mp hnodup
    rw [List.foldl_cons, ih hranks, SortedMap.get?_update]
    by_cases h : rank = r
    · subst h
      simp [hr]
    · simp [h]

/-- If no path lists a rank twice, what is collected under a rank is the weight of its paths. -/
theorem getD_get?_weights (hpaths : ∀ p ∈ paths, p.ranks.Nodup) (rank : Nat) :
    ((weights paths).get? rank).getD 0 = weightContaining paths [rank] := by
  suffices hfold : ∀ m : SortedMap Nat Nat,
      ((paths.foldl (fun m p => p.ranks.foldl
        (fun m r => m.update r fun w => w.getD 0 + p.weight) m) m).get? rank).getD 0 =
        (m.get? rank).getD 0 + weightContaining paths [rank] by
    simpa [weights] using hfold ∅
  induction paths with
  | nil => exact fun m => rfl
  | cons p paths ih =>
    intro m
    rw [List.foldl_cons, ih fun q hq => hpaths q (List.mem_cons_of_mem _ hq),
      getD_get?_foldl_update (hpaths p List.mem_cons_self), weightContaining, weightContaining,
      weightWhere_cons, Nat.add_assoc]
    simp

end WeightedPath

end UsageRules
