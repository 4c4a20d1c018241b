/-! The nodes of a usage graph: the declarations of a program and what they refer to. -/

namespace UsageRules

inductive ClassKind where
  | plainClass
  | interface
  deriving DecidableEq, Repr

inductive NodeKind where
  | classOrInterface
  | method
  | constructor
  | field
  | annotationType
  | param
  | returned
  | configFile
  | beansFile
  | fieldTypeDecl
  | paramTypeDecl
  deriving DecidableEq, Repr

inductive Node where
  /-- A class or interface; without a name it stands for the one at hand. -/
  | classOrInterface (kind : ClassKind) (name : String)
  | method (name returnType parameters : String)
  | constructor (name parameters : String)
  | field (typeName : String)
  /-- An annotation, by its fully qualified name. -/
  | annotationType (name : String)
  /-- `name:type` for a member of an annotation, the bare type for a parameter of a method. -/
  | param (name : String)
  | returned (typeName : String)
  | configFile (name : String)
  | beansFile (name : String)
  /-- The declared type of a field whose own declaration carries annotations. -/
  | fieldTypeDecl (name : String)
  /-- The declared type of a parameter whose own declaration carries annotations. -/
  | paramTypeDecl (name : String)
  deriving DecidableEq, Repr

namespace NodeKind

def all : List NodeKind := [
  classOrInterface, method, constructor, field, annotationType, param, returned, configFile,
  beansFile, fieldTypeDecl, paramTypeDecl]

def name : NodeKind → String
  | classOrInterface => "ClassOrInterface"
  | method => "Method"
  | constructor => "Constructor"
  | field => "Field"
  | annotationType => "Annotation"
  | param => "Param"
  | returned => "Return"
  | configFile => "ConfigFile"
  | beansFile => "BeansFile"
  | fieldTypeDecl => "FieldTypeDecl"
  | paramTypeDecl => "ParamTypeDecl"

/-- Declarations that carry annotations directly. -/
def isConstruct (k : NodeKind) : Bool := k ∈ [classOrInterface, method, constructor, field]

def isTypeDecl (k : NodeKind) : Bool := k ∈ [fieldTypeDecl, paramTypeDecl]

end NodeKind

/-- The fields of a node that must not be empty. -/
inductive NodeField where
  | name
  | returnType
  | typeName
  deriving DecidableEq, Repr

def NodeField.text : NodeField → String
  | .name => "name"
  | .returnType => "return type"
  | .typeName => "type name"

/-- A node whose required field is empty. -/
structure EmptyField where
  node : NodeKind
  field : NodeField
  deriving DecidableEq, Repr

def EmptyField.message (e : EmptyField) : String :=
  e.node.name ++ " node requires a non-empty " ++ e.field.text

namespace Node

def kind : Node → NodeKind
  | classOrInterface .. => .classOrInterface
  | method .. => .method
  | constructor .. => .constructor
  | field .. => .field
  | annotationType .. => .annotationType
  | param .. => .param
  | returned .. => .returned
  | configFile .. => .configFile
  | beansFile .. => .beansFile
  | fieldTypeDecl .. => .fieldTypeDecl
  | paramTypeDecl .. => .paramTypeDecl

/-! ## Checked construction -/

def require (node : NodeKind) (field : NodeField) (value : String) : Except EmptyField Unit :=
  if value.isEmpty then .error ⟨node, field⟩ else .ok ()

def mkMethod (name returnType parameters : String) : Except EmptyField Node := do
  require .method .name name
  require .method .returnType returnType
  return method name returnType parameters

def mkConstructor (name parameters : String) : Except EmptyField Node := do
  require .constructor .name name
  return constructor name parameters

def mkField (typeName : String) : Except EmptyField Node := do
  require .field .typeName typeName
  return field typeName

def mkAnnotationType (name : String) : Except EmptyField Node := do
  require .annotationType .name name
  return annotationType name

/-! ## Properties -/

/-- Whether a class or interface is a class; other nodes are neither. -/
def isClass? : Node → Option Bool
  | classOrInterface kind _ => some (kind = .plainClass)
  | _ => none

/-- The signature of a method without its name. -/
def signature? : Node → Option String
  | method _ returnType parameters =>
    some (returnType ++ " Method(" ++ (if parameters.isEmpty then "void" else parameters) ++ ")")
  | _ => none

end Node

end UsageRules
