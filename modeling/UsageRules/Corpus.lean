import UsageRules.Config
import UsageRules.SortedMap
import UsageRules.Usage

/-! From the usages of projects to batches of transactions, one batch for each part of the library.
Toy projects and tiny projects are left out, and a set of facts counts once for a project. -/

namespace UsageRules

abbrev Corpus := SortedMap String (List Usage)

def Corpus.ofJson : Json → Option Corpus := Json.asMap (Json.asList Usage.ofJson)

/-- Finds the parts of the library that items mention. -/
structure Router where
  matcher : Matcher
  libraryText : String

namespace Router

def ofConfig [PatternLanguage] (c : Config) : Except ConfigError Router := do
  return { matcher := ← c.matcher, libraryText := c.libraryText }

/-- Every part of the library that is named by an item of the library. -/
def keys (r : Router) (items : ItemSet) : SortedSet String :=
  .ofList ((items.toList.filter (Text.occursIn r.libraryText)).flatMap r.matcher.allMatches)

end Router

/-- The transactions that mention one part of the library. -/
structure Batch where
  subApi : String
  transactions : List Usage

def Batch.itemSets (b : Batch) : List ItemSet := b.transactions.map (·.items)

structure PreparationStats where
  projectsGiven : Nat
  projectsExcluded : Nat
  /-- Projects with too few usages. -/
  projectsSkipped : Nat
  projectsUsed : Nat
  totalUsages : Nat
  uniqueUsages : Nat
  /-- How many of the used projects mention each configured part of the library. -/
  subApiProjects : SortedMap String Nat
  bucketsKept : Nat
  bucketsDropped : Nat

def PreparationStats.toJson (s : PreparationStats) : Json := .ofFields [
  ("projects_given", .ofNat s.projectsGiven), ("projects_excluded", .ofNat s.projectsExcluded),
  ("projects_skipped", .ofNat s.projectsSkipped), ("projects_used", .ofNat s.projectsUsed),
  ("total_usages", .ofNat s.totalUsages), ("unique_usages", .ofNat s.uniqueUsages),
  ("sub_api_project_frequency",
    .ofFields (s.subApiProjects.entries.map fun e => (e.1, .ofNat e.2))),
  ("buckets_kept", .ofNat s.bucketsKept), ("buckets_dropped", .ofNat s.bucketsDropped)]

/-- Batches in the order of their parts of the library. -/
structure Prepared where
  batches : List Batch
  stats : PreparationStats

namespace Corpus

/-- The projects that are no toys. -/
def serious (c : Corpus) (config : Config) : List (List Usage) :=
  (c.entries.filter (!config.excludes ·.1)).map Prod.snd

/-- The projects that are no toys and have enough usages. -/
def used (c : Corpus) (config : Config) : List (List Usage) :=
  (c.serious config).filter (config.minUsagesPerProject ≤ ·.length)

/-- The transactions of each part of the library, in the order in which they are met; the parts are
in their own order. -/
def buckets (router : Router) (usages : List Usage) : List (String × List Usage) :=
  let keyed := usages.map fun u => (u, router.keys u.items)
  (SortedSet.ofList (keyed.flatMap (·.2.toList))).toList.map fun key =>
    (key, (keyed.filter (key ∈ ·.2)).map Prod.fst)

/-- Those of the parts of the library that stand in an item of one of the usages. -/
def mentioned (parts : List String) (usages : List Usage) : List String :=
  let texts := usages.flatMap fun u => u.items.toList.map String.toList
  parts.filter fun part => texts.any (Text.occurs part.toList)

/-- A bucket is mined if it is large enough and one of the configured parts of the library. -/
def isKept (config : Config) (bucket : String × List Usage) : Bool :=
  config.minBucketTransactions ≤ bucket.2.length &&
    config.subApiPrefixes.any (Text.occursIn · bucket.1)

def prepare (c : Corpus) (config : Config) (router : Router) : Prepared :=
  let serious := c.serious config
  let used := c.used config
  let unique := used.map Usage.distinct
  let mentions := unique.map (mentioned config.subApiPrefixes)
  let buckets := buckets router unique.flatten
  let kept := buckets.filter (isKept config)
  { batches := kept.map fun b => ⟨b.1, b.2⟩
    stats := {
      projectsGiven := c.size
      projectsExcluded := c.size - serious.length
      projectsSkipped := serious.length - used.length
      projectsUsed := used.length
      totalUsages := total (used.map List.length)
      uniqueUsages := total (unique.map List.length)
      subApiProjects := .ofList (config.subApiPrefixes.map fun part =>
        (part, mentions.countP (part ∈ ·)))
      bucketsKept := kept.length
      bucketsDropped := buckets.length - kept.length } }

end Corpus

end UsageRules
