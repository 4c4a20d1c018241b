import UsageRules.Fact
import UsageRules.Rule.Basic

/-! Which item sets and rules are about the library, and which of them mean something. A parameter
of an annotation means nothing without the fact that something carries the annotation, and facts
about configuration and beans files must not stand on the if-side of a rule. -/

namespace UsageRules

namespace ItemSet

def mentionsAny (items : ItemSet) (prefixes : List String) : Bool := prefixes.any items.mentions

/-- If the item gives a parameter to an annotation, one of `items` declares that annotation. -/
def supportsItem (items : ItemSet) (item : String) : Bool :=
  match Fact.parameterized? item with
  | some annotationLabel => Fact.declaredIn items annotationLabel
  | none => true

/-- Every parameter of an annotation stands next to a fact that declares the annotation. -/
def isMeaningful (items : ItemSet) : Bool := items.toList.all (supportsItem items)

end ItemSet

namespace Rule

/-- The antecedent is meaningful by itself, and has no fact that holds by construction. -/
def isMeaningful (r : Rule) : Bool :=
  r.antecedent.toList.all fun item =>
    !Fact.hasRelation item .definedIn && !Fact.hasRelation item .declaredInBeans &&
      ItemSet.supportsItem r.antecedent item

end Rule

end UsageRules
