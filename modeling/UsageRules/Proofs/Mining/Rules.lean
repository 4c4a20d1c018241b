import UsageRules.Proofs.Convention.RuleValidity
import UsageRules.Proofs.Mining.ItemSets

/-! The rules of a run. Batches count rules apart, and each item set gets the best of all that are
counted over its items, of equally good ones the first; only where none is counted, a rule is made
up (`Miner.run_rules`). -/

namespace UsageRules

open Generation Mining

namespace Generation.CountedRule

variable {transactions : List ItemSet} {pair : ItemSet × String} {r : Rule}

theorem isMeaningful_iff (h : CountedRule transactions pair r) :
    r.isMeaningful = true ↔ pair.1.Admits pair.2 := by
  rw [Rule.isMeaningful_iff_admits, h.allItems_eq, h.consequent_eq]

end Generation.CountedRule

namespace Miner

variable {config : Config} {batches : List Batch}

/-! ## Counted rules of all batches -/

/-- Batches come in ascending order of their parts of the library. -/
theorem pairwise_batches (m : Miner) (corpus : Corpus) :
    (m.batches corpus).Pairwise (·.subApi < ·.subApi) :=
  List.pairwise_map.mpr (.filter _ (List.pairwise_map.mpr (SortedSet.ascending _)))

/-- The batch counts a rule over the items with that consequent, and the rule is meaningful. -/
structure Counts (config : Config) (b : Batch) (items : ItemSet) (consequent : String) :
    Prop where
  frequent : config.minSupport ≤ supportIn b.itemSets items
  confident : config.minConfidence ≤ share b.itemSets items consequent
  admits : items.Admits consequent

/-- Of the rules over the items that the batches count, the one of this batch with that consequent
has the largest share; of those with the largest share, it comes first in the order of the batches
and then of the consequents. -/
structure CountsBest (config : Config) (batches : List Batch) (items : ItemSet) (b : Batch)
    (consequent : String) : Prop where
  mem : b ∈ batches
  counts : Counts config b items consequent
  best : ∀ b' ∈ batches, ∀ consequent', Counts config b' items consequent' →
    share b'.itemSets items consequent' < share b.itemSets items consequent ∨
      (share b'.itemSets items consequent' == share b.itemSets items consequent) = true ∧
        (b.subApi < b'.subApi ∨ b.subApi = b'.subApi ∧ consequent ≤ consequent')

/-- What the rules of a run are counted for, in the order of the batches. -/
def countedIn (config : Config) (batches : List Batch) : List (Batch × ItemSet × String) :=
  batches.flatMap fun b =>
    (countedPairs config.minSupport config.minConfidence b.itemSets).map (b, ·)

theorem mem_countedIn (hsupport : 0 < config.minSupport) {b : Batch} {items : ItemSet}
    {consequent : String} :
    (b, items, consequent) ∈ countedIn config batches ↔ b ∈ batches ∧ 2 ≤ items.size ∧
      config.minSupport ≤ supportIn b.itemSets items ∧ consequent ∈ items ∧
        config.minConfidence ≤ share b.itemSets items consequent := by
  have hthreshold : threshold config.minSupport = config.minSupport := Nat.max_eq_left hsupport
  rw [← hthreshold, ← mem_countedPairs, countedIn, List.mem_flatMap]
  constructor
  · rintro ⟨b', hb', hpair⟩
    obtain ⟨pair, hpair, heq⟩ := List.mem_map.mp hpair
    cases heq
    exact ⟨hb', hpair⟩
  · rintro ⟨hb, hpair⟩
    exact ⟨b, hb, List.mem_map_of_mem hpair⟩

theorem pairwise_countedIn (h : batches.Pairwise (·.subApi < ·.subApi)) :
    (countedIn config batches).Pairwise fun x y => x.2.1 = y.2.1 →
      x.1.subApi < y.1.subApi ∨ x.1.subApi = y.1.subApi ∧ x.2.2 < y.2.2 := by
  refine List.pairwise_flatMap.mpr ⟨fun b _ => ?_, ?_⟩
  · refine List.pairwise_map.mpr (pairwise_countedPairs.imp fun {x y} hlt heq => ?_)
    exact .inr ⟨rfl, hlt heq⟩
  · refine h.imp fun {b b'} hlt x hx y hy _ => ?_
    obtain ⟨_, -, rfl⟩ := List.mem_map.mp hx
    obtain ⟨_, -, rfl⟩ := List.mem_map.mp hy
    exact .inl hlt

/-- The rules of all batches together. -/
theorem forall₂_countedIn {results : List BucketResult}
    (h : List.Forall₂ (MinedBatch config) batches results) :
    List.Forall₂ (fun x r => CountedRule x.1.itemSets x.2 r) (countedIn config batches)
      (results.flatMap (·.rules)) :=
  List.rel_flatten (List.rel_map (fun _ _ hb => List.forall₂_map_left_iff.mpr hb.counted) h)

/-! ## The rules of a run -/

section SelectRule

variable {rules : List Rule} {f : FrequentSet} {r : Rule}

theorem confidence_of_mem_countedIn (hsupport : 0 < config.minSupport)
    (hlength : ∀ b ∈ batches, b.transactions.length < 2 ^ 64)
    {x : Batch × ItemSet × String} (hx : x ∈ countedIn config batches)
    (h : CountedRule x.1.itemSets x.2 r) :
    Double.IsNumber r.confidence ∧ r.confidence = share x.1.itemSets x.2.1 x.2.2 := by
  obtain ⟨hb, -, hle, -, -⟩ := (mem_countedIn hsupport).mp hx
  have hpos := Nat.lt_of_lt_of_le hsupport hle
  have hlength' : x.1.itemSets.length < 2 ^ 64 := by
    rw [Batch.itemSets, List.length_map]
    exact hlength x.1 hb
  have hconfidence : r.confidence = share x.1.itemSets x.2.1 x.2.2 :=
    h.confidence_eq.trans (capped_eq_self (share_le_one hlength' hpos))
  rw [hconfidence]
  exact ⟨(Double.le_iff_place.mp (zero_le_share hlength' hpos)).2.1, rfl⟩

theorem mem_countedIn_of_counts (hsupport : 0 < config.minSupport) {b : Batch}
    (hb : b ∈ batches) {consequent : String} (h : Counts config b f.items consequent) :
    (b, f.items, consequent) ∈ countedIn config batches :=
  (mem_countedIn hsupport).mpr ⟨hb, h.admits.two_le_size, h.frequent, h.admits.mem, h.confident⟩

theorem countsBest_of_mostConfident (hsupport : 0 < config.minSupport)
    (hbatches : batches.Pairwise (·.subApi < ·.subApi))
    (hlength : ∀ b ∈ batches, b.transactions.length < 2 ^ 64)
    (hrules : List.Forall₂ (fun x r => CountedRule x.1.itemSets x.2 r)
      (countedIn config batches) rules)
    (h : Rule.mostConfident (rulesOver rules f) = some r) :
    ∃ b, CountsBest config batches f.items b r.consequent ∧
      r.confidence = share b.itemSets f.items r.consequent := by
  obtain ⟨-, hitems, hmeaningful⟩ := mem_rulesOver.mp (Rule.mem_of_mostConfident_eq_some h)
  rw [rulesOver_eq_filter] at h
  have hnumber : ∀ r ∈ rules, Double.IsNumber r.confidence := by
    intro r hr
    obtain ⟨x, hx, hcounted⟩ := exists_mem_left hrules hr
    exact (confidence_of_mem_countedIn hsupport hlength hx hcounted).1
  obtain ⟨⟨b, items, consequent⟩, hx, hcounted, hbest⟩ :=
    Rule.mostConfident_filter_eq_some hrules (pairwise_countedIn hbatches) hnumber h
  obtain rfl : items = f.items := hcounted.allItems_eq.symm.trans hitems
  obtain rfl : r.consequent = consequent := hcounted.consequent_eq
  obtain ⟨hb, -, hle, -, hconfident⟩ := (mem_countedIn hsupport).mp hx
  have hconfidence := (confidence_of_mem_countedIn hsupport hlength hx hcounted).2
  refine ⟨b, ⟨hb, ⟨hle, hconfident, hcounted.isMeaningful_iff.mp hmeaningful⟩, ?_⟩, hconfidence⟩
  intro b' hb' consequent' hcounts
  have hy := mem_countedIn_of_counts hsupport hb' hcounts
  obtain ⟨r', hcounted', hcases⟩ := hbest _ hy
  have hover : (decide (r'.allItems = f.items) && r'.isMeaningful) = true := by
    rw [hcounted'.allItems_eq, hcounted'.isMeaningful_iff.mpr hcounts.admits]
    simp
  have hconfidence' := (confidence_of_mem_countedIn hsupport hlength hy hcounted').2
  rw [hconfidence, hconfidence'] at hcases
  refine (hcases hover).imp_right fun ⟨hbeq, horder⟩ => ⟨hbeq, ?_⟩
  rcases horder with heq | horder
  · cases heq
    exact .inr ⟨rfl, String.le_refl _⟩
  · exact (horder rfl).imp_right fun ⟨hsame, hlt⟩ => ⟨hsame, String.not_lt.mp (String.lt_asymm hlt)⟩

theorem not_counts_of_rulesOver_eq_nil (hsupport : 0 < config.minSupport)
    (hrules : List.Forall₂ (fun x r => CountedRule x.1.itemSets x.2 r)
      (countedIn config batches) rules)
    (h : rulesOver rules f = []) {b : Batch} (hb : b ∈ batches) (consequent : String) :
    ¬Counts config b f.items consequent := by
  intro hcounts
  obtain ⟨r, hr, hcounted⟩ :=
    exists_mem_right hrules (mem_countedIn_of_counts hsupport hb hcounts)
  have hover : r ∈ rulesOver rules f := mem_rulesOver.mpr
    ⟨hr, hcounted.allItems_eq, hcounted.isMeaningful_iff.mpr hcounts.admits⟩
  rw [h] at hover
  cases hover

end SelectRule

/-- A run gives each item set a rule over exactly its items. If batches count meaningful rules over
the items, it is the best of those, with its share as the confidence; otherwise it is made up, with
the chosen consequent. Counts have 64 bits, which no batch exceeds. -/
theorem run_rules (m : Miner) (hsupport : 0 < m.config.minSupport) (corpus : Corpus)
    (hlength : ∀ b ∈ m.batches corpus, b.transactions.length < 2 ^ 64) :
    ∃ outcome, m.run corpus = .ok outcome ∧
      List.Forall₂ (fun f r => r.allItems = f.items ∧ r.version = m.config.version ∧
        ((∃ b ∈ m.batches corpus, ∃ consequent, Counts m.config b f.items consequent) →
          ∃ b, CountsBest m.config (m.batches corpus) f.items b r.consequent ∧
            r.confidence = share b.itemSets f.items r.consequent) ∧
        ((∀ b ∈ m.batches corpus, ∀ consequent, ¬Counts m.config b f.items consequent) →
          f.items.chooseConsequent = some r.consequent ∧ r.confidence = -1.0))
        outcome.itemSets outcome.rules := by
  obtain ⟨results, rules, outcome, hrun, hmined, hselected, hitemSets, hrules⟩ :=
    exists_run m corpus
  refine ⟨outcome, hrun, ?_⟩
  rw [hitemSets, hrules]
  refine List.forall₂_map_left_iff.mpr (List.forall₂_map_right_iff.mpr (hselected.imp ?_))
  rintro f r ⟨hlarge, hselect⟩
  obtain ⟨r', hselect', hitems, hcases⟩ := exists_selectRule (results.flatMap (·.rules)) hlarge
  rw [hselect] at hselect'
  cases hselect'
  have hcounted := forall₂_countedIn hmined
  have hbest := countsBest_of_mostConfident (f := f) (r := r) hsupport (m.pairwise_batches corpus)
    hlength hcounted
  refine ⟨hitems, rfl, ?_, ?_⟩
  · rintro ⟨b, hb, consequent, hcounts⟩
    rcases hcases with hchosen | ⟨hnone, -⟩
    · exact hbest hchosen
    · exact absurd hcounts (not_counts_of_rulesOver_eq_nil hsupport hcounted hnone hb consequent)
  · intro hnot
    rcases hcases with hchosen | ⟨-, hchosen, hconfidence, -⟩
    · obtain ⟨b, hb, -⟩ := hbest hchosen
      exact absurd hb.counts (hnot b hb.mem r.consequent)
    · exact ⟨hchosen, hconfidence⟩

theorem rules_of_apiCorpus :
    ∃ m outcome, make apiConfig ∅ = .ok m ∧ 0 < m.config.minSupport ∧
      (∀ b ∈ m.batches apiCorpus, b.transactions.length < 2 ^ 64) ∧
      m.run apiCorpus = .ok outcome ∧ (∃ f ∈ outcome.itemSets, f.items = apiCheck) ∧
      List.Forall₂ (fun f r => f.items = apiCheck → r.confidence = 1.0) outcome.itemSets
        outcome.rules := by
  obtain ⟨m, b, hmake, hconfig, hrequired, hbatches, hsubApi, hitemSets⟩ := exists_batches_apiCorpus
  have hsupport := minSupport_pos_of_make hmake
  have hlength : ∀ b ∈ m.batches apiCorpus, b.transactions.length < 2 ^ 64 := by
    intro b' hb'
    rw [hbatches, List.mem_singleton] at hb'
    rw [hb', ← List.length_map (f := fun u => u.items), ← Batch.itemSets, hitemSets]
    decide
  obtain ⟨outcome, hrun, hrules⟩ := run_rules m hsupport apiCorpus hlength
  have hleft : LeavesMaximal m.config m.required (m.batches apiCorpus) apiCheck 2 := by
    rw [hconfig, hrequired, hbatches]
    exact leavesMaximal_apiCheck hsubApi hitemSets
  refine ⟨m, outcome, hmake, hsupport, hlength, hrun,
    exists_mem_itemSets_of_leavesMaximal hsupport hrun hleft, hrules.imp ?_⟩
  rintro f r ⟨-, -, hcounted, -⟩ hf
  rw [hf, hconfig] at hcounted
  have hadmits : apiCheck.Admits (Fact.text "Class" "annotatedWith" "Annotation_api.Health") := ⟨{
    antecedent := .singleton (Fact.text "Class" "implements" "Class_api.Check")
    consequent := Fact.text "Class" "annotatedWith" "Annotation_api.Health"
    confidence := 1.0
    antecedent_nonempty := rfl
    consequent_fresh := by decide +kernel }, by decide +kernel, rfl, by decide +kernel⟩
  have hcounts : Counts apiConfig b apiCheck
      (Fact.text "Class" "annotatedWith" "Annotation_api.Health") := {
    frequent := by rw [hitemSets]; decide +kernel
    confident := by rw [hitemSets]; decide +kernel
    admits := hadmits }
  obtain ⟨b', hbest, hconfidence⟩ := hcounted ⟨b, by simp [hbatches], _, hcounts⟩
  have hb' := hbest.mem
  rw [hbatches, List.mem_singleton] at hb'
  rw [hconfidence, hb', hitemSets]
  have hshare : ∀ c ∈ apiCheck.toList, share [apiCheck, apiCheck] apiCheck c = 1.0 := by
    decide +kernel
  exact hshare _ hbest.counts.admits.mem

end Miner

end UsageRules
