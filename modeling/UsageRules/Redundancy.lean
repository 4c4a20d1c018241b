import UsageRules.Record
import UsageRules.RulesError
import UsageRules.SortedMap

/-! The review of correct rules for duplicates. -/

namespace UsageRules

/-- The outcome of the review, over the correct and partly correct rules. -/
structure RedundancyReport where
  correctOrPartly : Nat
  /-- The ids of canonical rules. -/
  unique : SortedSet RuleId
  /-- How many rules repeat each canonical rule. -/
  redundant : SortedMap RuleId Nat
  /-- The ids of rules without a decision, in the order of the rules. -/
  unreviewed : List RuleId

namespace RedundancyReport

def add (report : RedundancyReport) (r : Record) : RedundancyReport :=
  let report := { report with correctOrPartly := report.correctOrPartly + 1 }
  match r.duplicate with
  | .unreviewed => { report with unreviewed := report.unreviewed ++ [r.id] }
  | .canonical => { report with unique := report.unique.insert r.id }
  | .duplicateOf id =>
    { report with redundant := report.redundant.update id fun n => n.getD 0 + 1 }

def compute (records : List Record) : RedundancyReport :=
  (records.filter (·.label.isCorrectOrPartly)).foldl add ⟨0, ∅, ∅, []⟩

def redundantTotal (report : RedundancyReport) : Nat := total report.redundant.values

end RedundancyReport

/-- What is missing in the review of a rule: a label, or for a correct rule a decision about
duplicates. -/
def Record.reviewGap? (r : Record) : Option ReviewGap :=
  if r.label.isUnknown then some .unknownLabel
  else if r.label.isCorrectOrPartly && r.duplicate = .unreviewed then some .noDuplicateDecision
  else none

/-- Fails at the first rule whose review is not complete. -/
def checkComplete : List Record → Except RulesError Unit
  | [] => .ok ()
  | r :: rs => match r.reviewGap? with
    | some gap => .error (.incompleteReview r.id gap)
    | none => checkComplete rs

end UsageRules
