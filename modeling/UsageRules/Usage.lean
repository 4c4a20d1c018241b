import UsageRules.Graph.Edge
import UsageRules.Json.Reader
import UsageRules.Location

/-! Usages: the facts about one declaration, with the place where it was found. A usage is drafted
fact by fact and then frozen; a frozen usage is never empty. -/

namespace UsageRules

/-- The facts about one declaration, at least one. -/
structure Usage where
  items : ItemSet
  location : Location
  nonempty : items.isEmpty = false
  deriving DecidableEq

/-- A usage without facts at a location. -/
structure EmptyUsage where
  location : Location
  deriving DecidableEq, Repr

def EmptyUsage.message (e : EmptyUsage) : String :=
  "a frozen itemset needs at least one item (" ++ e.location.text ++ ")"

namespace Usage

def make (items : ItemSet) (location : Location) : Except EmptyUsage Usage :=
  if h : items.isEmpty = false then .ok ⟨items, location, h⟩ else .error ⟨location⟩

/-- Whether two usages are the same; where they were found does not count. -/
def same (u v : Usage) : Bool := u.items = v.items

/-- The first usage of each set of items. -/
def distinct : List Usage → List Usage
  | [] => []
  | u :: us => u :: (distinct us).filter (!u.same ·)

def toJson (u : Usage) : Json := .ofFields [
  ("items", .ofStrings u.items.toList), ("location", u.location.toJson)]

def ofJson (v : Json) : Option Usage := do
  match ← v.asRecord ["items", "location"] with
  | [some items, location] =>
    let items ← items.asStringSet
    let location ← Json.orDefault Location.ofJson {} location
    (make items location).toOption
  | _ => none

end Usage

structure Draft where
  items : ItemSet := ∅
  location : Location

namespace Draft

def isNew (d : Draft) (item : String) : Bool := decide (¬item ∈ d.items)

def add (d : Draft) (item : String) : Draft := { d with items := d.items.insert item }

def addEdge (d : Draft) (e : Edge) : Draft := d.add e.render

def freeze (d : Draft) : Except EmptyUsage Usage := Usage.make d.items d.location

end Draft

end UsageRules
