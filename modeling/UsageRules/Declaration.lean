import UsageRules.Json.Reader

/-! Declarations of a library's own annotations. Only their required parameters matter: a compiler
already asks for those, so they are no conventions. -/

namespace UsageRules

structure RequiredParam where
  name : String
  typeName : String
  deriving DecidableEq, Repr

structure Declaration where
  /-- The fully qualified name. -/
  name : String
  isQualifier : Bool := false
  /-- The kinds of elements that the annotation may stand at. -/
  targets : List String := []
  requiredParams : List RequiredParam := []
  deriving DecidableEq, Repr

def RequiredParam.ofJson (v : Json) : Option RequiredParam := do
  match ← v.asRecord ["name", "type"] with
  | [some name, some typeName] =>
    some { name := ← name.asString, typeName := ← typeName.asString }
  | _ => none

def Declaration.ofJson (v : Json) : Option Declaration := do
  match ← v.asRecord ["name", "isQualifier", "target", "requiredParams"] with
  | [some name, isQualifier, targets, requiredParams] =>
    some {
      name := ← name.asString
      isQualifier := ← Json.orDefault Json.asBool false isQualifier
      targets := ← Json.orDefault Json.asStrings [] targets
      requiredParams :=
        ← Json.orDefault (Json.asList RequiredParam.ofJson) [] requiredParams }
  | _ => none

/-- The names of the required parameters of each annotation. -/
abbrev RequiredParams := SortedMap String (List String)

namespace RequiredParams

/-- The required parameters of a list of declarations; of declarations of one name the last
counts. -/
def ofDeclarations (l : List Declaration) : RequiredParams :=
  .ofList (l.map fun d => (d.name, d.requiredParams.map (·.name)))

def isRequired (r : RequiredParams) (annotated param : String) : Bool :=
  match r.get? annotated with
  | some params => param ∈ params
  | none => false

end RequiredParams

end UsageRules
