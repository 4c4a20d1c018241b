import UsageRules.Convention.Validity
import UsageRules.Frequent.Basic

/-! One rule for each item set: the most confident meaningful rule that was counted, or one that is
made up by choosing a consequent. -/

namespace UsageRules

namespace ItemSet

/-! ## Choosing a consequent -/

/-- Relations whose facts are chosen before all others, most preferred first. -/
def consequentRelations : List Relation := [.hasParam, .definedIn, .declaredInBeans]

/-- Relations of types and classes. -/
def typeRelations : List Relation := [.hasType, .hasReturnType, .extending, .implementing]

/-- The first item that satisfies one of the tests, tried in turn. -/
def firstOf (items : ItemSet) : List (String → Bool) → Option String
  | [] => none
  | test :: tests => match items.toList.find? test with
    | some item => some item
    | none => firstOf items tests

def isClassAnnotated (item : String) : Bool :=
  Fact.hasRelation item .annotatedWith &&
    [Fact.classStart, Fact.interfaceStart].any (Text.beginsWith item)

def isMemberAnnotated (item : String) : Bool :=
  Fact.hasRelation item .annotatedWith &&
    [Fact.fieldStart, Fact.methodStart, Fact.constructorStart, Fact.paramStart].any
      (Text.beginsWith item)

/-- The item that a made-up rule gets as its consequent: a parameter, else a fact about a
configuration file, else about a beans file; else a fact about a type; else an annotated class if a
member is annotated too; else the first item. -/
def chooseConsequent (items : ItemSet) : Option String :=
  let membersAnnotated := items.toList.any isMemberAnnotated
  items.firstOf (
    consequentRelations.map (fun r item => Fact.hasRelation item r) ++ [
      fun item => typeRelations.any (Fact.hasRelation item),
      fun item => membersAnnotated && isClassAnnotated item,
      fun _ => true])

/-- The rule over the items with the chosen consequent. -/
def synthesize (items : ItemSet) : Except RuleError Rule := do
  match items.toList.getLast? with
  | none => throw .emptyAntecedent
  | some last =>
    let rule ← Rule.make (items.erase last) last synthesizedConfidence
    match items.chooseConsequent with
    | none => return rule
    | some chosen => if chosen = last then return rule else rule.moveToConsequent chosen

end ItemSet

/-! ## Choosing a rule -/

namespace Rule

/-- The first rule that no other exceeds in confidence. -/
def mostConfident : List Rule → Option Rule
  | [] => none
  | r :: rs => some (rs.foldl (fun best r => if best.confidence < r.confidence then r else best) r)

end Rule

/-- The meaningful rules over exactly the items of a set. -/
def rulesOver (rules : List Rule) (f : FrequentSet) : List Rule :=
  rules.filter fun r => r.size = f.size && r.allItems = f.items && r.isMeaningful

def selectRule (rules : List Rule) (f : FrequentSet) : Except RuleError Rule := do
  let rule ← match Rule.mostConfident (rulesOver rules f) with
    | some rule => pure rule
    | none => f.items.synthesize
  if rule.antecedent.size + 1 = f.size then return rule
  else throw (.sizeMismatch f.size rule.antecedent.size)

/-- One rule for each item set, in their order. -/
def selectRules (sets : List FrequentSet) (rules : List Rule) : Except RuleError (List Rule) :=
  sets.mapM (selectRule rules)

end UsageRules
