import Std.Data.HashMap
import UsageRules.Frequent.Basic
import UsageRules.Rule.Basic

/-! Rules from frequent item sets: every way to single out one item as the consequent, if enough of
the transactions with the other items have it too. -/

namespace UsageRules

namespace Generation

/-- The frequency given for each item set; if it is given twice the last one counts. -/
def frequencies (frequent : List FrequentSet) : Std.HashMap ItemSet Nat :=
  frequent.foldl (fun m f => m.insert f.items f.frequency) ∅

/-- The frequency of an item set is that of its last entry in the list. -/
theorem frequencies_get? (frequent : List FrequentSet) (items : ItemSet) :
    (frequencies frequent)[items]? =
      (frequent.reverse.find? (·.items = items)).map (·.frequency) := by
  suffices h : ∀ m : Std.HashMap ItemSet Nat,
      (frequent.foldl (fun m f => m.insert f.items f.frequency) m)[items]? =
        ((frequent.reverse.find? (·.items = items)).map (·.frequency)).or m[items]? by
    simpa [frequencies] using h ∅
  induction frequent with
  | nil => simp
  | cons f l ih =>
    intro m
    rw [List.foldl_cons, ih, List.reverse_cons, List.find?_append, Std.HashMap.getElem?_insert]
    cases l.reverse.find? (·.items = items) with
    | some _ => simp
    | none => by_cases h : f.items = items <;> simp [h]

/-- The share of the transactions with the antecedent that have the whole item set. -/
def quotient (whole antecedent : Nat) : Float :=
  whole.toUInt64.toFloat / antecedent.toUInt64.toFloat

/-- The rule that singles out `consequent`, if the antecedent was counted and the confidence
suffices. -/
def ruleFor (counts : Std.HashMap ItemSet Nat) (minConfidence : Float) (f : FrequentSet)
    (consequent : String) : Except RuleError (Option Rule) :=
  let antecedent := f.items.erase consequent
  match counts[antecedent]? with
  | none => .ok none
  | some 0 => .ok none
  | some n =>
    let confidence := quotient f.frequency n
    if minConfidence ≤ confidence then
      (Rule.make antecedent consequent (if 1.0 < confidence then 1.0 else confidence)).map some
    else .ok none

def rulesOf (counts : Std.HashMap ItemSet Nat) (minConfidence : Float) (f : FrequentSet) :
    Except RuleError (List Rule) := do
  return (← f.items.toList.mapM (ruleFor counts minConfidence f)).filterMap fun r => r

end Generation

/-- The rules of all item sets of two or more items, in the order of the sets and then of the
consequents. -/
def generateRules (frequent : List FrequentSet) (minConfidence : Float) :
    Except RuleError (List Rule) := do
  let counts := Generation.frequencies frequent
  return (← (frequent.filter (2 ≤ ·.size)).mapM
    (Generation.rulesOf counts minConfidence)).flatten

end UsageRules
