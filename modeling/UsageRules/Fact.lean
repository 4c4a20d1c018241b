import UsageRules.ItemSet
import UsageRules.Text.CharClass

/-! Facts as texts `source --(relation)--> target`: the relations, and what can be read off a text
without knowing the graph it was rendered from. -/

namespace UsageRules

inductive Relation where
  | hasMethod
  | hasField
  | belongsToClass
  | annotatedWith
  | hasParam
  | hasReturnType
  | hasType
  | extending
  | implementing
  | definedIn
  | declaredInBeans
  deriving DecidableEq, Repr

namespace Relation

def name : Relation → String
  | hasMethod => "hasMethod"
  | hasField => "hasField"
  | belongsToClass => "belongsToClass"
  | annotatedWith => "annotatedWith"
  | hasParam => "hasParam"
  | hasReturnType => "hasReturnType"
  | hasType => "hasType"
  | extending => "extends"
  | implementing => "implements"
  | definedIn => "definedIn"
  | declaredInBeans => "declaredInBeans"

end Relation

namespace Fact

/-- What stands between the source and the target of a fact. -/
def marker (relation : String) : String := "--(" ++ relation ++ ")-->"

def text (source relation target : String) : String :=
  source ++ " " ++ marker relation ++ " " ++ target

/-! ## Beginnings of node labels -/

def annotationStart : String := "Annotation_"
def paramStart : String := "Param_"
def classStart : String := "Class"
def interfaceStart : String := "Interface"
def methodStart : String := "Method"
def fieldStart : String := "Field"
def constructorStart : String := "Constructor"

/-! ## Reading the text of a fact -/

def hasRelation (item : String) (r : Relation) : Bool := Text.occursIn (marker r.name) item

/-- The label of the annotation that an item gives a parameter to: what stands before the first
space of an item that begins like an annotation and has the marker of a parameter. -/
def parameterized? (item : String) : Option String :=
  if Text.beginsWith item annotationStart && hasRelation item .hasParam then
    (Text.splitAtFirst ' ' item.toList).map fun p => String.ofList p.1
  else none

/-- The item says that something is annotated with the annotation of that label. -/
def declares (item annotationLabel : String) : Bool :=
  (marker Relation.annotatedWith.name ++ " " ++ annotationLabel).toList.isSuffixOf item.toList

def declaredIn (items : ItemSet) (annotationLabel : String) : Bool :=
  items.toList.any (declares · annotationLabel)

/-- The annotation and the parameter's name of an item of the form
`Annotation_<annotation> --(hasParam)--> Param_<name>:<type>`. -/
def annotationParam? (item : String) : Option (String × String) := do
  let rest ← annotationStart.toList.isPrefixOf? item.toList
  let (annotated, relation) ← Text.splitAtFirst ' ' rest
  let target ← (marker Relation.hasParam.name).toList.isPrefixOf? relation
  let param ← paramStart.toList.isPrefixOf? (Text.trimStart target)
  let name := match Text.splitAtFirst ':' param with
    | some (name, _) => name
    | none => param
  some (String.ofList annotated, String.ofList name)

end Fact

end UsageRules
