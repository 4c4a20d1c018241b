import UsageRules.ItemSet
import UsageRules.Label

/-! Item sets with the number of transactions that contain them. -/

namespace UsageRules

/-- An item set, how many transactions contain it, and what later stages know about it. -/
@[ext] structure FrequentSet where
  items : ItemSet
  frequency : Nat
  label : Label := .unknown
  version : String := ""
  deriving DecidableEq

namespace FrequentSet

def size (f : FrequentSet) : Nat := f.items.size

def toJson (f : FrequentSet) : Json := .ofFields [
  ("items", .ofStrings f.items.toList), ("frequency", .ofNat f.frequency),
  ("label", f.label.toJson), ("version", .ofString f.version)]

def ofJson (v : Json) : Option FrequentSet := do
  match ← v.asRecord ["items", "frequency", "label", "version"] with
  | [some items, some frequency, label, version] =>
    some {
      items := ← items.asStringSet
      frequency := ← frequency.asNat
      label := ← Json.orDefault Label.ofJson .unknown label
      version := ← Json.orDefault Json.asString "" version }
  | _ => none

end FrequentSet

end UsageRules
