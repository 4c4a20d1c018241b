import UsageRules.Convention.Reduction
import UsageRules.Convention.Selection
import UsageRules.Corpus
import UsageRules.Frequent.Mining
import UsageRules.Rule.Generation
import UsageRules.SupportIndex

/-! A mining run: every batch is mined for itself, the results are put together and filtered, and
each item set that is left gets one rule. -/

namespace UsageRules

structure MiningSummary where
  projectsGiven : Nat
  projectsUsed : Nat
  projectsSkipped : Nat
  totalUsages : Nat
  uniqueUsages : Nat
  bucketsMined : Nat
  frequentRaw : Nat
  frequentInSubApi : Nat
  afterTargetPrefix : Nat
  afterSemantics : Nat
  afterRequiredParams : Nat
  afterSizeFloor : Nat
  maximal : Nat
  candidateRules : Nat
  finalRules : Nat
  synthesizedRules : Nat
  deriving DecidableEq, Repr

def MiningSummary.toJson (s : MiningSummary) : Json := .ofFields [
  ("projects_given", .ofNat s.projectsGiven), ("projects_used", .ofNat s.projectsUsed),
  ("projects_skipped", .ofNat s.projectsSkipped), ("total_usages", .ofNat s.totalUsages),
  ("unique_usages", .ofNat s.uniqueUsages), ("buckets_mined", .ofNat s.bucketsMined),
  ("frequent_raw", .ofNat s.frequentRaw), ("frequent_in_sub_api", .ofNat s.frequentInSubApi),
  ("after_target_prefix", .ofNat s.afterTargetPrefix),
  ("after_semantics", .ofNat s.afterSemantics),
  ("after_required_params", .ofNat s.afterRequiredParams),
  ("after_size_floor", .ofNat s.afterSizeFloor), ("maximal", .ofNat s.maximal),
  ("candidate_rules", .ofNat s.candidateRules), ("final_rules", .ofNat s.finalRules),
  ("synthesized_rules", .ofNat s.synthesizedRules)]

structure BucketResult where
  /-- How many sets are frequent in the batch. -/
  raw : Nat
  frequent : List FrequentSet
  rules : List Rule
  index : SupportIndex

def BucketResult.ofBatch (config : Config) (batch : Batch) : Except RuleError BucketResult := do
  let frequent := mineFrequent config.minSupport batch.itemSets
  let rules ← generateRules frequent config.minConfidence
  return {
    raw := frequent.length
    frequent := frequent.filter (·.items.mentions batch.subApi)
    rules
    index := SupportIndex.build batch.itemSets }

/-- The item sets of a run and their rules, in the same order. -/
structure MiningOutcome where
  itemSets : List FrequentSet
  rules : List Rule
  preparation : PreparationStats
  summary : MiningSummary

/-- An accepted configuration with what a run needs besides. -/
structure Miner where
  config : Config
  required : RequiredParams
  router : Router

namespace Miner

def make [PatternLanguage] (config : Config) (required : RequiredParams) :
    Except ConfigError Miner := do
  config.validate
  return { config, required, router := ← Router.ofConfig config }

/-- A candidate without its required parameters; if there were any, its frequency is counted anew.
Nothing is left of a set of required parameters. -/
def prune (required : RequiredParams) (candidate : FrequentSet × SupportIndex) :
    Option FrequentSet :=
  let (f, index) := candidate
  let items := f.items.strip required
  if items.size = f.size then some f
  else if items.isEmpty then none
  else some { f with items, frequency := index.support items.toList }

def run (m : Miner) (corpus : Corpus) : Except RuleError MiningOutcome := do
  let prepared := corpus.prepare m.config m.router
  let buckets ← prepared.batches.mapM (BucketResult.ofBatch m.config)
  let candidates := buckets.flatMap fun b => b.frequent.map (·, b.index)
  let allRules := buckets.flatMap (·.rules)
  let onTarget := candidates.filter (·.1.items.mentionsAny m.config.targetPrefixes)
  let meaningful := onTarget.filter (·.1.items.isMeaningful)
  let pruned := meaningful.filterMap (prune m.required)
  let large := pruned.filter (2 ≤ ·.size)
  let maximal := maximalSets large
  let rules ← selectRules maximal allRules
  let stats := prepared.stats
  return {
    itemSets := maximal.map ({ · with version := m.config.version })
    rules := rules.map ({ · with version := m.config.version })
    preparation := stats
    summary := {
      projectsGiven := stats.projectsGiven
      projectsUsed := stats.projectsUsed
      projectsSkipped := stats.projectsSkipped + stats.projectsExcluded
      totalUsages := stats.totalUsages
      uniqueUsages := stats.uniqueUsages
      bucketsMined := buckets.length
      frequentRaw := total (buckets.map (·.raw))
      frequentInSubApi := candidates.length
      afterTargetPrefix := onTarget.length
      afterSemantics := meaningful.length
      afterRequiredParams := pruned.length
      afterSizeFloor := large.length
      maximal := maximal.length
      candidateRules := allRules.length
      finalRules := rules.length
      synthesizedRules := rules.countP (·.isSynthesized) } }

end Miner

end UsageRules
