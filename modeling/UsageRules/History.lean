import UsageRules.Record
import UsageRules.SortedMap
import UsageRules.Version

/-! The rules of earlier versions: what label a rule was given last, and in which version it was
first seen. -/

namespace UsageRules

/-- The records of each version, by tag. -/
structure History where
  versions : SortedMap String (List Record)

/-- A version that has a rule, and the label the rule has there. -/
structure Sighting where
  version : String
  label : Label
  deriving DecidableEq, Repr

namespace Sighting

/-- The newest label that is known, of sightings from the oldest to the newest. -/
def label? (sightings : List Sighting) : Label :=
  ((sightings.reverse.map label).find? (!·.isUnknown)).getD .unknown

/-- The oldest version, or else the current one. -/
def firstVersion (sightings : List Sighting) (current : String) : String :=
  (sightings.head?.map version).getD current

end Sighting

namespace History

def isEmpty (h : History) : Bool := h.versions.isEmpty

def tags (h : History) : List String := h.versions.keys.toList.mergeSort Version.notAfter

def records? (h : History) (tag : String) : Option (List Record) := h.versions.get? tag

def ordered (h : History) : List (String × List Record) :=
  h.tags.map fun tag => (tag, (h.records? tag).getD [])

/-- The versions that have a rule, from the oldest to the newest; in each its first record
counts. -/
def sightings (h : History) (id : RuleId) : List Sighting :=
  h.ordered.filterMap fun (tag, records) =>
    (records.find? (·.id = id)).map fun r => ⟨tag, r.label⟩

def labelOf (h : History) (id : RuleId) : Label := Sighting.label? (h.sightings id)

def firstVersionOf (h : History) (id : RuleId) (current : String) : String :=
  Sighting.firstVersion (h.sightings id) current

/-- The sightings of every rule of the history, collected in one pass over the versions. -/
def sightingIndex (h : History) : SortedMap RuleId (List Sighting) :=
  h.ordered.foldl
    (fun m (tag, records) => (Record.distinctIds records).foldl
      (fun m r => m.update r.id fun seen => seen.getD [] ++ [⟨tag, r.label⟩]) m)
    ∅

/-- Gives freshly mined rules the labels they had and the versions they were first seen in. -/
def annotate (h : History) (rules : List Rule) (current : String) : List Rule :=
  let index := h.sightingIndex
  rules.map fun r =>
    let seen := (index.get? r.id).getD []
    { r with label := Sighting.label? seen, version := Sighting.firstVersion seen current }

end History

end UsageRules
