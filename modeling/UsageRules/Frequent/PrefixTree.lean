import UsageRules.SortedMap

/-! Prefix trees of weighted paths. Items are given by rank; a path lists the ranks of a
transaction in ascending order. Nodes are numbered in the order of their making, so the parent of a
node has a smaller number. Every place knows its children, and a header knows the nodes of each
rank and how much they count together. -/

namespace UsageRules

/-- Ascending ranks, and the number of transactions that have exactly these. -/
structure WeightedPath where
  ranks : List Nat
  weight : Nat
  deriving DecidableEq, Repr

/-- How much the paths of each rank weigh; a rank without a path is not listed. -/
def WeightedPath.weights (paths : List WeightedPath) : SortedMap Nat Nat :=
  paths.foldl
    (fun m p => p.ranks.foldl (fun m rank => m.update rank fun w => w.getD 0 + p.weight) m) ∅

/-- A node: its rank, the weight of the paths through it, its parent, which is none below the
root, and the ranks and numbers of its children. -/
structure PrefixNode where
  rank : Nat
  count : Nat := 0
  parent : Option Nat
  children : List (Nat × Nat) := []
  deriving DecidableEq, Repr

/-- The nodes of a rank in the order of their making, and how much they count together. -/
structure HeaderEntry where
  support : Nat := 0
  nodes : List Nat := []
  deriving DecidableEq, Repr

structure PrefixTree where
  /-- The ranks and numbers of the children of the root. -/
  top : List (Nat × Nat) := []
  nodes : Array PrefixNode := #[]
  header : SortedMap Nat HeaderEntry := ∅

namespace PrefixTree

def empty : PrefixTree := {}

/-! ## Building -/

/-- The ranks and numbers of the children at a place: of a node, or of the root. -/
def childrenAt (t : PrefixTree) : Option Nat → List (Nat × Nat)
  | none => t.top
  | some i => (t.nodes[i]?.map (·.children)).getD []

/-- Makes a node that counts nothing yet, and lists it at its place and in the header. -/
def attach (t : PrefixTree) (place : Option Nat) (rank : Nat) : PrefixTree :=
  let i := t.nodes.size
  let nodes := t.nodes.push { rank, parent := place }
  let header := t.header.update rank fun e =>
    { e.getD {} with nodes := (e.getD {}).nodes ++ [i] }
  match place with
  | none => { top := t.top ++ [(rank, i)], nodes, header }
  | some j =>
    let nodes := nodes.modify j fun n => { n with children := n.children ++ [(rank, i)] }
    { t with nodes, header }

/-- The number of the child with a rank at a place, which is made if there is none. -/
def reach (t : PrefixTree) (place : Option Nat) (rank : Nat) : PrefixTree × Nat :=
  match (t.childrenAt place).find? (·.1 = rank) with
  | some (_, i) => (t, i)
  | none => (t.attach place rank, t.nodes.size)

/-- Adds a weight to the count of a node and to the support of its rank. -/
def addWeight (t : PrefixTree) (i rank weight : Nat) : PrefixTree where
  top := t.top
  nodes := t.nodes.modify i fun n => { n with count := n.count + weight }
  header := match t.header.get? rank with
    | none => t.header
    | some e => t.header.insert rank { e with support := e.support + weight }

/-- Adds a weight to the child with a rank at a place, and gives its number. -/
def addAt (t : PrefixTree) (place : Option Nat) (rank weight : Nat) : PrefixTree × Nat :=
  let (t, i) := t.reach place rank
  (t.addWeight i rank weight, i)

/-- Adds a weight to every node along a path that begins below `place`. -/
def addPath (t : PrefixTree) (place : Option Nat) (weight : Nat) : List Nat → PrefixTree
  | [] => t
  | rank :: ranks =>
    let (t, i) := t.addAt place rank weight
    addPath t (some i) weight ranks

/-- The tree of weighted paths without the ranks whose weight is below `minSupport`. -/
def build (paths : List WeightedPath) (minSupport : Nat) : PrefixTree :=
  let weights := WeightedPath.weights paths
  let kept (rank : Nat) : Bool := minSupport ≤ (weights.get? rank).getD 0
  paths.foldl (fun t p => t.addPath none p.weight (p.ranks.filter kept)) empty

/-! ## Looking up -/

def ranks (t : PrefixTree) : SortedSet Nat := t.header.keys

/-- The numbers of the nodes of a rank, in ascending order. -/
def nodesOf (t : PrefixTree) (rank : Nat) : List Nat :=
  ((t.header.get? rank).map (·.nodes)).getD []

/-- The ranks from below the root to a node, in front of `below`. As numbers fall on the way up,
the number of the node bounds the steps. -/
def climb (t : PrefixTree) : Nat → Option Nat → List Nat → List Nat
  | _, none, below => below
  | 0, some _, below => below
  | fuel + 1, some i, below =>
    match t.nodes[i]? with
    | none => below
    | some n => climb t fuel n.parent (n.rank :: below)

/-- The ranks above a node, from below the root on. -/
def prefixPath (t : PrefixTree) (i : Nat) : List Nat :=
  match t.nodes[i]? with
  | none => []
  | some n => t.climb i n.parent []

/-- The weighted paths above the nodes of a rank; empty paths are left out. -/
def conditionalPaths (t : PrefixTree) (rank : Nat) : List WeightedPath :=
  (t.nodesOf rank).filterMap fun i =>
    match t.prefixPath i, t.nodes[i]? with
    | [], _ => none
    | path, some n => some ⟨path, n.count⟩
    | _, none => none

end PrefixTree

end UsageRules
