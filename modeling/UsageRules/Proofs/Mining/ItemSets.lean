import Mathlib.Order.Bounds.Basic
import UsageRules.Proofs.Convention.Pruning
import UsageRules.Proofs.Mining.Stages

/-! The item sets of a run: what stripping leaves of the candidates, as far as nothing that is left
contains it, each with its greatest support in a batch of a candidate (`Miner.run_itemSets`). -/

namespace UsageRules

open Mining

namespace Miner

variable {config : Config} {required : RequiredParams} {batches : List Batch}

/-! ## What stripping leaves -/

/-- Stripping a candidate of some batch leaves the items, and the count is their support there. -/
def Leaves (config : Config) (required : RequiredParams) (batches : List Batch) (items : ItemSet)
    (count : Nat) : Prop :=
  ∃ b ∈ batches, ∃ candidate, Candidate config required b candidate ∧
    candidate.strip required = items ∧ supportIn b.itemSets items = count

theorem mem_survivors_iff_leaves (hsupport : 0 < config.minSupport) {f : FrequentSet} :
    f ∈ survivors config required batches ↔
      Leaves config required batches f.items f.frequency ∧ f.label = .unknown ∧
        f.version = "" := by
  rw [mem_survivors hsupport]
  constructor
  · rintro ⟨b, hb, candidate, hcandidate, rfl⟩
    exact ⟨⟨b, hb, candidate, hcandidate, rfl, rfl⟩, rfl, rfl⟩
  · rintro ⟨⟨b, hb, candidate, hcandidate, hitems, hcount⟩, hlabel, hversion⟩
    refine ⟨b, hb, candidate, hcandidate, FrequentSet.ext hitems.symm ?_ hlabel hversion⟩
    rw [← hcount, hitems]

/-- With fewer items the support of a candidate does not fall. -/
theorem Leaves.minSupport_le {items : ItemSet} {count : Nat}
    (h : Leaves config required batches items count) : config.minSupport ≤ count := by
  obtain ⟨b, -, candidate, hcandidate, rfl, rfl⟩ := h
  exact Nat.le_trans hcandidate.frequent
    (supportIn_anti (fun _ ha => (SortedSet.mem_filter.mp ha).1) b.itemSets)

/-- Nothing that stripping leaves is larger than the items, and the count is their greatest support
in a batch of a candidate that leaves them. -/
structure LeavesMaximal (config : Config) (required : RequiredParams) (batches : List Batch)
    (items : ItemSet) (count : Nat) : Prop where
  greatest : IsGreatest {n | Leaves config required batches items n} count
  maximal : ∀ items' n, Leaves config required batches items' n → items ⊆ items' →
    items' = items

theorem mem_maximalSets_survivors (hsupport : 0 < config.minSupport) {f : FrequentSet} :
    f ∈ maximalSets (survivors config required batches) ↔
      LeavesMaximal config required batches f.items f.frequency ∧ f.label = .unknown ∧
        f.version = "" := by
  have survives : ∀ {items count}, Leaves config required batches items count →
      { items, frequency := count } ∈ survivors config required batches :=
    fun h => (mem_survivors_iff_leaves hsupport).mpr ⟨h, rfl, rfl⟩
  constructor
  · intro hf
    obtain ⟨hleaves, hlabel, hversion⟩ :=
      (mem_survivors_iff_leaves hsupport).mp (mem_of_mem_maximalSets hf)
    refine ⟨⟨⟨hleaves, fun n hn => ?_⟩, fun items n hn hsub => ?_⟩, hlabel, hversion⟩
    · exact (maximal_of_mem_maximalSets hf (survives hn) (SortedSet.subset_refl f.items)).2
    · exact (maximal_of_mem_maximalSets hf (survives hn) hsub).1
  · rintro ⟨⟨⟨hleaves, hgreatest⟩, hmax⟩, hlabel, hversion⟩
    have hf := (mem_survivors_iff_leaves hsupport).mpr ⟨hleaves, hlabel, hversion⟩
    obtain ⟨g, hg, hitems⟩ := exists_mem_maximalSets hf fun g hg hsub =>
      hmax g.items g.frequency ((mem_survivors_iff_leaves hsupport).mp hg).1 hsub
    obtain ⟨hleaves', hlabel', hversion'⟩ :=
      (mem_survivors_iff_leaves hsupport).mp (mem_of_mem_maximalSets hg)
    -- The set that is kept has the frequency of `f`, as each bounds the other.
    have hle := (maximal_of_mem_maximalSets hg hf
      (hitems ▸ SortedSet.subset_refl g.items)).2
    have hge := hgreatest (hitems ▸ hleaves')
    have heq : g = f := FrequentSet.ext hitems (Nat.le_antisymm hge hle)
      (hlabel'.trans hlabel.symm) (hversion'.trans hversion.symm)
    exact heq ▸ hg

/-- With a single batch a candidate stays if stripping leaves nothing larger of a transaction. -/
theorem Candidate.leavesMaximal {b : Batch} {items : ItemSet}
    (h : Candidate config required b items) (hsupport : 0 < config.minSupport)
    (hlargest : ∀ t ∈ b.itemSets, items.strip required ⊆ t.strip required →
      t.strip required ⊆ items.strip required) :
    LeavesMaximal config required [b] (items.strip required)
      (supportIn b.itemSets (items.strip required)) := by
  refine ⟨⟨⟨b, List.mem_singleton_self b, items, h, rfl, rfl⟩, ?_⟩, ?_⟩
  · rintro n ⟨b', hb', -, -, -, rfl⟩
    cases List.mem_singleton.mp hb'
    exact Nat.le_refl _
  · rintro _ n ⟨b', hb', candidate, hcandidate, rfl, -⟩ hsub
    cases List.mem_singleton.mp hb'
    obtain ⟨t, ht, hcontains⟩ :=
      List.countP_pos_iff.mp (Nat.lt_of_lt_of_le hsupport hcandidate.frequent)
    have hstrip : candidate.strip required ⊆ t.strip required := fun a ha =>
      have ha := ItemSet.mem_strip.mp ha
      ItemSet.mem_strip.mpr ⟨of_decide_eq_true hcontains a ha.1, ha.2⟩
    have hlarger := hlargest t ht (SortedSet.Subset.trans hsub hstrip)
    exact SortedSet.subset_antisymm (SortedSet.Subset.trans hstrip hlarger) hsub

/-! ## The item sets of a run -/

section Run

variable {m : Miner} {corpus : Corpus} {outcome : MiningOutcome}

theorem mem_itemSets_iff (hsupport : 0 < m.config.minSupport) (hrun : m.run corpus = .ok outcome)
    {f : FrequentSet} :
    f ∈ outcome.itemSets ↔
      LeavesMaximal m.config m.required (m.batches corpus) f.items f.frequency ∧
        f.label = .unknown ∧ f.version = m.config.version := by
  rw [itemSets_eq_of_run hrun, List.mem_map]
  constructor
  · rintro ⟨g, hg, rfl⟩
    obtain ⟨hleft, hlabel, -⟩ := (mem_maximalSets_survivors hsupport).mp hg
    exact ⟨hleft, hlabel, rfl⟩
  · rintro ⟨hleft, hlabel, hversion⟩
    have hg := (mem_maximalSets_survivors hsupport
      (f := { f with version := "" })).mpr ⟨hleft, hlabel, rfl⟩
    refine ⟨_, hg, ?_⟩
    rw [← hversion]

theorem exists_mem_itemSets_of_leavesMaximal (hsupport : 0 < m.config.minSupport)
    (hrun : m.run corpus = .ok outcome) {items : ItemSet} {count : Nat}
    (hleft : LeavesMaximal m.config m.required (m.batches corpus) items count) :
    ∃ f ∈ outcome.itemSets, f.items = items :=
  ⟨{ items, frequency := count, version := m.config.version },
    (mem_itemSets_iff hsupport hrun).mpr ⟨hleft, rfl, rfl⟩, rfl⟩

end Run

/-- A run gives each maximal set that stripping leaves exactly once, with its greatest support in a
batch of a candidate that leaves it, the largest sets of the highest frequencies first. -/
theorem run_itemSets (m : Miner) (hsupport : 0 < m.config.minSupport) (corpus : Corpus) :
    ∃ outcome, m.run corpus = .ok outcome ∧
      (∀ f, f ∈ outcome.itemSets ↔
        LeavesMaximal m.config m.required (m.batches corpus) f.items f.frequency ∧
          f.label = .unknown ∧ f.version = m.config.version) ∧
      outcome.itemSets.Pairwise FrequentSet.Precedes ∧
      (outcome.itemSets.map (·.items)).Nodup ∧
      ∀ f ∈ outcome.itemSets, m.config.minSupport ≤ f.frequency := by
  obtain ⟨-, -, outcome, hrun, -⟩ := exists_run m corpus
  have hmem := fun f => mem_itemSets_iff hsupport hrun (f := f)
  refine ⟨outcome, hrun, hmem, ?_, ?_, fun f hf => ((hmem f).mp hf).1.greatest.1.minSupport_le⟩
  · rw [itemSets_eq_of_run hrun]
    refine List.pairwise_map.mpr ((pairwise_maximalSets _).imp fun {f g} ⟨hfirst, hnot⟩ => ?_)
    exact FrequentSet.precedes_of_largestFirst (f := f) hfirst fun heq =>
      hnot (heq ▸ SortedSet.subset_refl g.items)
  · rw [itemSets_eq_of_run hrun, List.map_map]
    exact nodup_items_maximalSets _

/-! ## A small corpus -/

/-- The check is left with its count. -/
theorem leavesMaximal_apiCheck {b : Batch} (hsubApi : b.subApi = "api")
    (hitemSets : b.itemSets = [apiCheck, apiCheck]) : LeavesMaximal apiConfig ∅ [b] apiCheck 2 := by
  have hcandidate : Candidate apiConfig ∅ b apiCheck := {
    nonempty := by decide +kernel
    frequent := by rw [hitemSets]; decide +kernel
    inSubApi := by rw [hsubApi]; decide +kernel
    onTarget := by decide +kernel
    meaningful := by decide +kernel
    large := by decide +kernel }
  have hleft := hcandidate.leavesMaximal (by decide) (by rw [hitemSets]; decide +kernel)
  have hstrip : apiCheck.strip ∅ = apiCheck := by decide +kernel
  have hcount : supportIn [apiCheck, apiCheck] apiCheck = 2 := by decide +kernel
  rwa [hstrip, hitemSets, hcount] at hleft

theorem itemSets_of_apiCorpus :
    ∃ m outcome, make apiConfig ∅ = .ok m ∧ 0 < m.config.minSupport ∧
      m.run apiCorpus = .ok outcome ∧
      { items := apiCheck, frequency := 2, version := apiConfig.version } ∈ outcome.itemSets := by
  obtain ⟨m, b, hmake, hconfig, hrequired, hbatches, hsubApi, hitemSets⟩ := exists_batches_apiCorpus
  have hsupport := minSupport_pos_of_make hmake
  obtain ⟨outcome, hrun, hmem, -⟩ := run_itemSets m hsupport apiCorpus
  rw [hconfig, hrequired, hbatches] at hmem
  exact ⟨m, outcome, hmake, hsupport, hrun,
    (hmem _).mpr ⟨leavesMaximal_apiCheck hsubApi hitemSets, rfl, rfl⟩⟩

end Miner

end UsageRules
