import UsageRules.History
import UsageRules.RulesError

/-! How stable the rules of a version are against those of earlier versions, how precise they are,
and how much of a benchmark they find. -/

namespace UsageRules

/-- A fully labelled version and all others, from the oldest to the newest. -/
structure Baseline where
  currentVersion : String
  current : List Record
  prior : List (String × List Record)

namespace Baseline

def ofHistory (h : History) (currentVersion : String) : Except RulesError Baseline :=
  match h.records? currentVersion with
  | none => .error (.missingCurrentVersion currentVersion)
  | some current =>
    let unlabeled := current.countP (·.label.isUnknown)
    if unlabeled = 0 then
      .ok { currentVersion, current, prior := h.ordered.filter (·.1 ≠ currentVersion) }
    else .error (.unlabeledBaseline currentVersion unlabeled)

end Baseline

def countLabels (labels : List Label) : SortedMap Label Nat :=
  labels.foldl (fun m l => m.update l fun n => n.getD 0 + 1) ∅

def labelCountsToJson (m : SortedMap Label Nat) : Json :=
  .ofFields (m.entries.map fun e => (e.1.text, .ofNat e.2))

/-! ## Deltas -/

/-- How the ids of current rules relate to those of an earlier set. -/
structure Delta where
  /-- Current and earlier. -/
  hits : SortedSet RuleId
  /-- Earlier only. -/
  misses : SortedSet RuleId
  /-- Current only. -/
  new : SortedSet RuleId
  /-- The misses by the label of their first earlier record. -/
  missesByLabel : SortedMap Label Nat

namespace Delta

def compute (current prior : List Record) : Delta :=
  let currentIds := Record.ids current
  let priorIds := Record.ids prior
  { hits := currentIds.filter (· ∈ priorIds)
    misses := priorIds.filter (¬· ∈ currentIds)
    new := currentIds.filter (¬· ∈ priorIds)
    missesByLabel := countLabels
      (((Record.distinctIds prior).filter (¬·.id ∈ currentIds)).map (·.label)) }

def idsToJson (ids : SortedSet RuleId) : Json := .array (ids.toList.map fun id => .ofInt id.toInt)

def toJson (d : Delta) : Json := .ofFields [
  ("hits", idsToJson d.hits), ("misses", idsToJson d.misses), ("new", idsToJson d.new),
  ("misses_by_label", labelCountsToJson d.missesByLabel)]

end Delta

/-! ## Recall and precision -/

/-- A share of a whole; nothing of nothing is zero. -/
def ratio (part whole : Nat) : Float :=
  if whole = 0 then 0.0 else part.toUInt64.toFloat / whole.toUInt64.toFloat

/-- How many rules of a benchmark are found. -/
structure Recall where
  /-- With the same sides. -/
  exactly : Nat
  /-- Not with the same sides, but covered by a rule. -/
  partly : Nat
  benchmark : Nat
  deriving DecidableEq, Repr

namespace Recall

def share (r : Recall) : Float := ratio (r.exactly + r.partly) r.benchmark

def toJson (r : Recall) : Json := .ofFields [
  ("exact", .ofNat r.exactly), ("partial", .ofNat r.partly), ("benchmark", .ofNat r.benchmark)]

end Recall

def recallOf (benchmark current : List Record) : Recall where
  exactly := benchmark.countP fun e => current.any (·.isExactly e)
  partly := benchmark.countP fun e => !current.any (·.isExactly e) && current.any (·.covers e)
  benchmark := benchmark.length

def precisionOf (current : List Record) : Float :=
  ratio (current.countP (·.label.isCorrectOrPartly)) current.length

/-! ## Report -/

structure StabilityReport where
  currentVersion : String
  totalRules : Nat
  perVersion : List (String × Delta)
  /-- Against all earlier versions together. -/
  overall : Delta
  labelCounts : SortedMap Label Nat
  precision : Float
  benchmarkRecall : Option Recall

namespace StabilityReport

/-- The records of all earlier versions, one for each id, the newest and in it the last. -/
def priorUnion (b : Baseline) : List Record :=
  (SortedMap.ofList ((b.prior.flatMap Prod.snd).map fun r => (r.id, r))).values

def compute (b : Baseline) (benchmark : Option (List Record)) : StabilityReport where
  currentVersion := b.currentVersion
  totalRules := (Record.ids b.current).size
  perVersion := b.prior.map fun (tag, records) => (tag, Delta.compute b.current records)
  overall := Delta.compute b.current (priorUnion b)
  labelCounts := countLabels (b.current.map (·.label))
  precision := precisionOf b.current
  benchmarkRecall := benchmark.map fun expected => recallOf expected b.current

def toJson (r : StabilityReport) : Json := .ofFields [
  ("current_version", .ofString r.currentVersion), ("total_rules", .ofNat r.totalRules),
  ("per_version", .array (r.perVersion.map fun (tag, d) => .array [.ofString tag, d.toJson])),
  ("overall", r.overall.toJson), ("label_counts", labelCountsToJson r.labelCounts),
  ("precision", .ofFloat r.precision),
  ("recall", match r.benchmarkRecall with
    | none => .null
    | some b => b.toJson)]

end StabilityReport

end UsageRules
