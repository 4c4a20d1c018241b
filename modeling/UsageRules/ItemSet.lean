import UsageRules.SortedSet
import UsageRules.Text.Search

/-! Sets of items. An item is the text of a fact about a declaration; items are the same if their
texts are equal, and sets of them are ordered like words over the texts. -/

namespace UsageRules

abbrev ItemSet := SortedSet String

instance : Hashable ItemSet := ⟨fun s => hash s.toList⟩

namespace ItemSet

def mentions (s : ItemSet) (needle : String) : Bool := s.toList.any (Text.occursIn needle)

/-- Smaller sets come first, sets of one size in the order of their items. -/
def sizeThenItems (s t : ItemSet) : Bool :=
  s.size < t.size || (s.size = t.size && ¬t.toList < s.toList)

/-- The order of words is total on sets. -/
theorem lt_of_not_lt {s t : ItemSet} (hne : s ≠ t) (h : ¬t.toList < s.toList) :
    s.toList < t.toList := by
  rcases Std.lt_trichotomy s.toList t.toList with hlt | heq | hlt
  · exact hlt
  · exact absurd (SortedSet.eq_of_toList_eq heq) hne
  · exact absurd hlt h

end ItemSet

end UsageRules
