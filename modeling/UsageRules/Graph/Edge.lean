import UsageRules.Fact
import UsageRules.Graph.Node

/-! The edges of a usage graph, and the facts they are rendered as. An edge kind admits certain
kinds of endpoints only, and no other edge can be made. -/

namespace UsageRules

inductive EdgeKind where
  | hasMethod
  | hasField
  | belongsToClass
  | annotatedWith
  | hasParam
  | returns
  | extending
  | definedInConfig
  | declaredInBeans
  deriving DecidableEq, Repr

namespace EdgeKind

def all : List EdgeKind := [
  hasMethod, hasField, belongsToClass, annotatedWith, hasParam, returns, extending,
  definedInConfig, declaredInBeans]

def name : EdgeKind → String
  | hasMethod => "HasMethod"
  | hasField => "HasField"
  | belongsToClass => "BelongsToClass"
  | annotatedWith => "AnnotatedWith"
  | hasParam => "HasParam"
  | returns => "Returns"
  | extending => "Extends"
  | definedInConfig => "DefinedInConfig"
  | declaredInBeans => "DeclaredInBeans"

def ofName? (name : String) : Option EdgeKind := all.find? (·.name = name)

def allows (k : EdgeKind) (source target : NodeKind) : Bool :=
  match k with
  | hasMethod => source = .classOrInterface && target = .method
  | hasField => source = .classOrInterface && target = .field
  | belongsToClass => source ∈ [.field, .method] && target = .classOrInterface
  | annotatedWith =>
    (source.isConstruct || source = .param || source.isTypeDecl) && target = .annotationType
  | hasParam => source ∈ [.method, .annotationType, .constructor] && target = .param
  | returns => source ∈ [.method, .field] && target = .returned
  | extending => source = .classOrInterface && target = .classOrInterface
  | definedInConfig => source = .param && target = .configFile
  | declaredInBeans => source = .classOrInterface && target = .beansFile

/-- All pairs of kinds that the edge kind can lead between. -/
def allowedPairs (k : EdgeKind) : List (NodeKind × NodeKind) :=
  NodeKind.all.flatMap fun source => (NodeKind.all.filter (k.allows source)).map (source, ·)

end EdgeKind

/-- An edge between kinds of nodes that its kind admits. -/
structure Edge where
  kind : EdgeKind
  source : Node
  target : Node
  allowed : kind.allows source.kind target.kind = true
  deriving DecidableEq

structure InvalidEndpoints where
  edge : EdgeKind
  source : NodeKind
  target : NodeKind
  deriving DecidableEq, Repr

def InvalidEndpoints.message (e : InvalidEndpoints) : String :=
  e.edge.name ++ " edge cannot connect " ++ e.source.name ++ " -> " ++ e.target.name

def Node.label : Node → String
  | classOrInterface kind name =>
    let start := match kind with
      | .plainClass => Fact.classStart
      | .interface => Fact.interfaceStart
    if name.isEmpty then start else start ++ "_" ++ name
  | method .. => Fact.methodStart
  | constructor .. => Fact.constructorStart
  | field .. => Fact.fieldStart
  | annotationType name => Fact.annotationStart ++ name
  | param name => Fact.paramStart ++ (if name.isEmpty then "void" else name)
  | returned typeName => typeName
  | configFile name => "ConfigFile_" ++ name
  | beansFile name => name
  | fieldTypeDecl _ => "FieldTypeDecl"
  | paramTypeDecl _ => "ParamTypeDecl"

namespace Edge

def make (kind : EdgeKind) (source target : Node) : Except InvalidEndpoints Edge :=
  if h : kind.allows source.kind target.kind = true then .ok ⟨kind, source, target, h⟩
  else .error ⟨kind, source.kind, target.kind⟩

/-- Whether the parent in an inheritance edge is a class. -/
def isClassExtension? (e : Edge) : Option Bool :=
  if e.kind = .extending then e.target.isClass? else none

/-- Whether the typed member in a type edge is a method. -/
def isForMethod? (e : Edge) : Option Bool :=
  if e.kind = .returns then some (e.source.kind = .method) else none

/-- The relation that the text of the edge names. A type belongs to a method as its return type;
inheritance from an interface is an implementation. -/
def relation (e : Edge) : Relation :=
  match e.kind with
  | .hasMethod => .hasMethod
  | .hasField => .hasField
  | .belongsToClass => .belongsToClass
  | .annotatedWith => .annotatedWith
  | .hasParam => .hasParam
  | .returns => if e.isForMethod? = some true then .hasReturnType else .hasType
  | .extending => if e.isClassExtension? = some true then .extending else .implementing
  | .definedInConfig => .definedIn
  | .declaredInBeans => .declaredInBeans

def render (e : Edge) : String := Fact.text e.source.label e.relation.name e.target.label

end Edge

end UsageRules
