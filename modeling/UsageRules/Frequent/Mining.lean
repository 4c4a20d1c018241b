import UsageRules.Frequent.Basic
import UsageRules.Frequent.PrefixTree

/-! Finding every item set that enough transactions contain, with its exact count. The items of
enough support are ranked, the transactions merged into a prefix tree, and the tree is searched rank
by rank through trees of the paths above each rank. -/

namespace UsageRules

def supportIn (transactions : List ItemSet) (items : ItemSet) : Nat :=
  transactions.countP fun t => decide (items ⊆ t)

def itemSupport (transactions : List ItemSet) (item : String) : Nat :=
  transactions.countP fun t => decide (item ∈ t)

/-- Ascending ranks and the weight of the paths that contain them all. -/
structure RankedPattern where
  ranks : List Nat
  support : Nat
  deriving DecidableEq, Repr

namespace PrefixTree

/-- Adds to `found` the frequent sets that consist of ranks below `rank`, of `rank` itself and of
the ranks of `suffix`, for a tree of the paths that contain `suffix`. -/
def mineWithin : Nat → PrefixTree → Nat → List Nat → Nat → Array RankedPattern →
    Array RankedPattern
  | 0, _, _, _, _, found => found
  | fuel + 1, t, rank, suffix, minSupport, found =>
    match t.header.get? rank with
    | none => found
    | some entry =>
      if entry.support < minSupport then found
      else
        let found := found.push ⟨rank :: suffix, entry.support⟩
        let paths := t.conditionalPaths rank
        if paths.isEmpty then found
        else
          let conditional := build paths minSupport
          conditional.ranks.toList.foldl
            (fun found next => mineWithin fuel conditional next (rank :: suffix) minSupport found)
            found

/-- The search for one rank. Ranks fall from one tree to the next, so `rank + 1` bounds the
depth. -/
def mineRank (t : PrefixTree) (rank : Nat) (suffix : List Nat) (minSupport : Nat)
    (found : Array RankedPattern) : Array RankedPattern :=
  mineWithin (rank + 1) t rank suffix minSupport found

/-- All frequent sets of ranks of a tree. -/
def mineAll (t : PrefixTree) (minSupport : Nat) : Array RankedPattern :=
  t.ranks.toList.foldl (fun found rank => t.mineRank rank [] minSupport found) #[]

end PrefixTree

namespace Mining

/-- The support below which nothing is reported; a threshold of zero counts as one. -/
def threshold (minSupport : Nat) : Nat := max minSupport 1

/-- The items of enough support, the most frequent first and items of one support in their
order. -/
def rankedItems (transactions : List ItemSet) (minSupport : Nat) : List String :=
  let items := (SortedSet.ofList (transactions.flatMap (·.toList))).toList
  let counted := (items.map fun item => (item, itemSupport transactions item)).filter
    fun e => minSupport ≤ e.2
  (counted.mergeSort fun a b => b.2 < a.2 || (b.2 = a.2 && a.1 ≤ b.1)).map Prod.fst

/-- The ranks of the ranked items that a transaction contains. -/
def pathOf (ranked : List String) (transaction : ItemSet) : List Nat :=
  (ranked.zipIdx.filter (·.1 ∈ transaction)).map Prod.snd

def itemsOf (ranked : List String) (ranks : List Nat) : ItemSet :=
  .ofList (ranks.filterMap (ranked[·]?))

end Mining

/-- Every non-empty item set that at least `minSupport` transactions contain, with its count, by
size and then by items. -/
def mineFrequent (minSupport : Nat) (transactions : List ItemSet) : List FrequentSet :=
  let minSupport := Mining.threshold minSupport
  let ranked := Mining.rankedItems transactions minSupport
  let paths := (transactions.map (Mining.pathOf ranked)).filter (!·.isEmpty)
  let tree := PrefixTree.build (paths.map (⟨·, 1⟩)) minSupport
  let found := (tree.mineAll minSupport).toList.map fun p =>
    ({ items := Mining.itemsOf ranked p.ranks, frequency := p.support } : FrequentSet)
  found.mergeSort fun a b => ItemSet.sizeThenItems a.items b.items

end UsageRules
