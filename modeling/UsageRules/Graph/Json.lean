import UsageRules.Graph.Edge
import UsageRules.Json.Reader

/-! Nodes and edge kinds in JSON documents: a node is an object with its kind and its fields, or an
array of its kind and the values of its fields. -/

namespace UsageRules

def ClassKind.tag : ClassKind → String
  | .plainClass => "class"
  | .interface => "interface"

def ClassKind.ofTag? : String → Option ClassKind
  | "class" => some .plainClass
  | "interface" => some .interface
  | _ => none

/-- A class kind; after its name as a member there may also be an empty object. -/
def ClassKind.ofJson : Json → Option ClassKind
  | .object [(.text tag, .object [])] => ofTag? tag
  | v => v.asConstant ofTag?

def EdgeKind.ofJson : Json → Option EdgeKind := Json.asConstant EdgeKind.ofName?

namespace NodeKind

def tag : NodeKind → String
  | classOrInterface => "class_or_interface"
  | method => "method"
  | constructor => "constructor"
  | field => "field"
  | annotationType => "annotation"
  | param => "param"
  | returned => "return"
  | configFile => "config_file"
  | beansFile => "beans_file"
  | fieldTypeDecl => "field_type_decl"
  | paramTypeDecl => "param_type_decl"

def ofTag? (tag : String) : Option NodeKind := all.find? (·.tag = tag)

def fieldNames : NodeKind → List String
  | classOrInterface => ["name", "class_kind"]
  | method => ["name", "return_type", "parameters"]
  | constructor => ["name", "parameters"]
  | field => ["type_name"]
  | returned => ["type_name"]
  | _ => ["name"]

end NodeKind

namespace Node

def fields : Node → List (String × String)
  | classOrInterface kind name => [("name", name), ("class_kind", kind.tag)]
  | method name returnType parameters =>
    [("name", name), ("return_type", returnType), ("parameters", parameters)]
  | constructor name parameters => [("name", name), ("parameters", parameters)]
  | field typeName => [("type_name", typeName)]
  | returned typeName => [("type_name", typeName)]
  | annotationType name => [("name", name)]
  | param name => [("name", name)]
  | configFile name => [("name", name)]
  | beansFile name => [("name", name)]
  | fieldTypeDecl name => [("name", name)]
  | paramTypeDecl name => [("name", name)]

def toJson (n : Node) : Json :=
  .ofFields (("kind", .ofString n.kind.tag) :: n.fields.map fun f => (f.1, .ofString f.2))

/-- The node of a kind with the given values of its fields. -/
def ofValues : NodeKind → List Json → Option Node
  | .classOrInterface, [name, kind] => do
    return classOrInterface (← ClassKind.ofJson kind) (← name.asString)
  | .method, [name, returnType, parameters] => do
    return method (← name.asString) (← returnType.asString) (← parameters.asString)
  | .constructor, [name, parameters] => do
    return constructor (← name.asString) (← parameters.asString)
  | .field, [typeName] => do return field (← typeName.asString)
  | .returned, [typeName] => do return returned (← typeName.asString)
  | .annotationType, [name] => do return annotationType (← name.asString)
  | .param, [name] => do return param (← name.asString)
  | .configFile, [name] => do return configFile (← name.asString)
  | .beansFile, [name] => do return beansFile (← name.asString)
  | .fieldTypeDecl, [name] => do return fieldTypeDecl (← name.asString)
  | .paramTypeDecl, [name] => do return paramTypeDecl (← name.asString)
  | _, _ => none

/-- The kind that a document names, and the rest of the document. -/
def splitKind : Json → Option (Json × Json)
  | .object members =>
    match Json.membersNamed "kind" members with
    | [tag] => some (tag, .object members)
    | _ => none
  | .array (tag :: values) => some (tag, .array values)
  | _ => none

/-- Reads a node without the checks of its construction. -/
def ofJson (v : Json) : Option Node := do
  let (tag, rest) ← splitKind v
  let kind ← NodeKind.ofTag? (← tag.asString)
  let values ← (← rest.asRecord kind.fieldNames).mapM id
  ofValues kind values

end Node

end UsageRules
