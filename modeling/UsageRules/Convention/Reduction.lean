import UsageRules.Declaration
import UsageRules.Fact
import UsageRules.Frequent.Basic

/-! What is left of the item sets that were found: items without required parameters, and of the
sets those that are contained in no other. -/

namespace UsageRules

/-! ## Required parameters -/

/-- The item gives an annotation one of its required parameters. -/
def RequiredParams.requires (r : RequiredParams) (item : String) : Bool :=
  match Fact.annotationParam? item with
  | some (annotated, param) => r.isRequired annotated param
  | none => false

/-- The items that are no required parameters. -/
def ItemSet.strip (items : ItemSet) (required : RequiredParams) : ItemSet :=
  items.filter (!required.requires ·)

def ItemSet.strippedCount (items : ItemSet) (required : RequiredParams) : Nat :=
  items.size - (items.strip required).size

/-! ## Maximal sets -/

namespace FrequentSet

/-- Larger sets come first, then those of higher frequency, then the order of the items. -/
def largestFirst (a b : FrequentSet) : Bool :=
  b.size < a.size || (a.size = b.size &&
    (b.frequency < a.frequency || (a.frequency = b.frequency &&
      ¬b.items.toList < a.items.toList)))

/-- Adds to `kept` the sets that are contained in none before them. -/
def keepUncovered (kept : List FrequentSet) : List FrequentSet → List FrequentSet
  | [] => kept
  | f :: fs =>
    if kept.any (f.items ⊆ ·.items) then keepUncovered kept fs
    else keepUncovered (kept ++ [f]) fs

end FrequentSet

/-- The sets that are contained in no other, largest first. As they are visited in that order, a
set that contains another has been kept before it, and of equal sets the one of the highest
frequency. -/
def maximalSets (l : List FrequentSet) : List FrequentSet :=
  FrequentSet.keepUncovered [] (l.mergeSort FrequentSet.largestFirst)

end UsageRules
