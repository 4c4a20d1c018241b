import UsageRules.Rule.Basic

/-! Stored rules: what a rule file keeps of a rule, with its label and the decision whether it
repeats another rule. -/

namespace UsageRules

structure Record where
  id : RuleId
  antecedent : ItemSet
  consequent : ItemSet
  label : Label := .unknown
  /-- The rule that this one repeats, as it is stored. -/
  sameAs : Option Int64 := none
  deriving DecidableEq

/-- The decision of a duplicate review. -/
inductive Duplicate where
  | unreviewed
  /-- The rule stands for itself and for those that repeat it. -/
  | canonical
  | duplicateOf (id : RuleId)
  deriving DecidableEq

namespace Record

def make (antecedent consequent : ItemSet) (label : Label) : Record :=
  { id := contentId antecedent consequent, antecedent, consequent, label }

def ofRule (r : Rule) : Record :=
  { id := r.id, antecedent := r.antecedent, consequent := .singleton r.consequent,
    label := r.label }

def items (r : Record) : ItemSet := r.antecedent ∪ r.consequent

/-- Nothing stored, or a zero, is no decision; minus one is the mark of a canonical rule. -/
def duplicate (r : Record) : Duplicate :=
  match r.sameAs with
  | none => .unreviewed
  | some id => if id = 0 then .unreviewed else if id = -1 then .canonical else .duplicateOf id

def isExactly (r s : Record) : Bool := r.antecedent = s.antecedent && r.consequent = s.consequent

def covers (r s : Record) : Bool := decide (s.items ⊆ r.items)

def distinctIds : List Record → List Record
  | [] => []
  | r :: rs => r :: (distinctIds rs).filter (·.id ≠ r.id)

def ids (records : List Record) : SortedSet RuleId := .ofList (records.map (·.id))

/-! ## Documents -/

def toJson (r : Record) : Json :=
  .ofFields ([
    ("id", .ofInt r.id.toInt), ("antecedent", .ofStrings r.antecedent.toList),
    ("consequent", .ofStrings r.consequent.toList), ("label", r.label.toJson)] ++
    match r.sameAs with
    | none => []
    | some id => [("sameAs", .ofInt id.toInt)])

def ofJson (v : Json) : Option Record := do
  match ← v.asRecord ["id", "antecedent", "consequent", "label", "sameAs"] with
  | [some id, some antecedent, some consequent, label, sameAs] =>
    some {
      id := ← id.asInt64
      antecedent := ← antecedent.asStringSet
      consequent := ← consequent.asStringSet
      label := ← Json.orDefault Label.ofJson .unknown label
      sameAs := ← Json.orDefault (Json.asOptional Json.asInt64) none sameAs }
  | _ => none

end Record

end UsageRules
