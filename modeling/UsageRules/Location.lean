import UsageRules.Json.Reader

/-! Where a set of facts was found. -/

namespace UsageRules

structure Location where
  project : String := ""
  file : String := ""
  qualifiedName : String := ""
  deriving DecidableEq, Repr, Inhabited

namespace Location

def text (l : Location) : String := l.project ++ ":" ++ l.file ++ "#" ++ l.qualifiedName

def toJson (l : Location) : Json := .ofFields [
  ("project", .ofString l.project), ("file", .ofString l.file),
  ("qualified_name", .ofString l.qualifiedName)]

def ofJson (v : Json) : Option Location := do
  match ← v.asRecord ["project", "file", "qualified_name"] with
  | [some project, file, qualifiedName] =>
    some {
      project := ← project.asString
      file := ← Json.orDefault Json.asString "" file
      qualifiedName := ← Json.orDefault Json.asString "" qualifiedName }
  | _ => none

end Location

end UsageRules
