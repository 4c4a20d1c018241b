import UsageRules.Frequent.PrefixTree

/-! The paths to the nodes of a prefix tree. In a tree that is `Rising` every node hangs at a place
of a smaller number and a smaller rank, so climbing ends below the root (`Rising.pathTo_some`) and
ranks rise along a path (`Rising.pathTo_ascending`). -/

namespace UsageRules

namespace PrefixTree

/-! ## Paths to nodes -/

/-- The rank and the parent of the node with a number. -/
def shape (t : PrefixTree) (i : Nat) : Option (Nat × Option Nat) :=
  t.nodes[i]?.map fun n => (n.rank, n.parent)

/-- A node of a rank may hang at a place: at the root, or at a node of a smaller rank. -/
def Carries (t : PrefixTree) (place : Option Nat) (rank : Nat) : Prop :=
  ∀ i, place = some i → ∃ above parent, t.shape i = some (above, parent) ∧ above < rank

/-- Every node hangs at a place of a smaller number that carries its rank. -/
def Rising (t : PrefixTree) : Prop :=
  ∀ i rank parent, t.shape i = some (rank, parent) →
    (∀ j, parent = some j → j < i) ∧ t.Carries parent rank

/-- The ranks from below the root to a place, its own included; there are none at the root. -/
def pathTo (t : PrefixTree) : Option Nat → List Nat
  | none => []
  | some i => t.climb (i + 1) (some i) []

variable {t t' : PrefixTree} {i rank : Nat} {parent : Option Nat}

theorem shape_of_node {n : PrefixNode} (hn : t.nodes[i]? = some n) :
    t.shape i = some (n.rank, n.parent) := by
  simp [shape, hn]

theorem lt_size_of_shape (h : t.shape i = some (rank, parent)) : i < t.nodes.size := by
  obtain ⟨n, hn, -⟩ := Option.map_eq_some_iff.mp h
  exact (Array.getElem?_eq_some_iff.mp hn).1

theorem climb_of_shape (h : t.shape i = some (rank, parent)) (fuel : Nat) (below : List Nat) :
    t.climb (fuel + 1) (some i) below = t.climb fuel parent (rank :: below) := by
  obtain ⟨n, hn, heq⟩ := Option.map_eq_some_iff.mp h
  obtain ⟨rfl, rfl⟩ := Prod.mk.inj heq
  simp only [climb, hn]

theorem climb_of_shape_none (h : t.shape i = none) (fuel : Nat) (below : List Nat) :
    t.climb (fuel + 1) (some i) below = below := by
  have hn : t.nodes[i]? = none := Option.map_eq_none_iff.mp h
  simp only [climb, hn]

theorem climb_append (fuel : Nat) (place : Option Nat) (below : List Nat) :
    t.climb fuel place below = t.climb fuel place [] ++ below := by
  induction fuel generalizing place below with
  | zero => cases place <;> simp [climb]
  | succ fuel ih =>
    cases place with
    | none => simp [climb]
    | some i =>
      cases hs : t.shape i with
      | none => rw [climb_of_shape_none hs, climb_of_shape_none hs, List.nil_append]
      | some s =>
        rw [climb_of_shape hs, climb_of_shape hs, ih, ih s.2 [s.1], List.append_assoc,
          List.singleton_append]

/-- Trees of one shape below a number have the same paths there, whatever the fuel, if it is
enough. -/
theorem Rising.climb_congr (ht : t.Rising) {k fuel fuel' : Nat} {place : Option Nat}
    (h : ∀ j < k, t'.shape j = t.shape j)
    (hk : ∀ i, place = some i → i < k ∧ i < fuel ∧ i < fuel') (below : List Nat) :
    t'.climb fuel place below = t.climb fuel' place below := by
  induction fuel generalizing fuel' place below with
  | zero =>
    cases place with
    | none => cases fuel' <;> rfl
    | some i => exact absurd (hk i rfl).2.1 (Nat.not_lt_zero i)
  | succ fuel ih =>
    cases place with
    | none => cases fuel' <;> rfl
    | some i =>
      obtain ⟨hik, hif, hif'⟩ := hk i rfl
      cases fuel' with
      | zero => exact absurd hif' (Nat.not_lt_zero i)
      | succ fuel' =>
        cases hs : t.shape i with
        | none => rw [climb_of_shape_none hs, climb_of_shape_none ((h i hik).trans hs)]
        | some s =>
          rw [climb_of_shape hs, climb_of_shape ((h i hik).trans hs)]
          refine ih (fun j hj => ?_) (s.1 :: below)
          have := (ht i s.1 s.2 hs).1 j hj
          omega

theorem Rising.pathTo_congr (ht : t.Rising) {k : Nat} {place : Option Nat}
    (h : ∀ j < k, t'.shape j = t.shape j) (hk : ∀ i, place = some i → i < k) :
    t'.pathTo place = t.pathTo place := by
  cases place with
  | none => rfl
  | some i =>
    refine ht.climb_congr h (fun j hj => ?_) []
    cases hj
    exact ⟨hk i rfl, Nat.lt_succ_self i, Nat.lt_succ_self i⟩

theorem Rising.pathTo_some (ht : t.Rising) (h : t.shape i = some (rank, parent)) :
    t.pathTo (some i) = t.pathTo parent ++ [rank] := by
  rw [pathTo, climb_of_shape h, climb_append]
  congr 1
  cases parent with
  | none => cases i <;> rfl
  | some j =>
    have hj := (ht i rank _ h).1 j rfl
    refine ht.climb_congr (fun _ _ => rfl) (k := i) (fun k hk => ?_) []
    cases hk
    omega

theorem Rising.prefixPath_eq (ht : t.Rising) (h : t.shape i = some (rank, parent)) :
    t.prefixPath i = t.pathTo parent := by
  obtain ⟨n, hn, heq⟩ := Option.map_eq_some_iff.mp h
  obtain ⟨rfl, rfl⟩ := Prod.mk.inj heq
  have hclimb : t.climb (i + 1) (some i) [] = t.climb i n.parent [] ++ [n.rank] := by
    rw [climb_of_shape h, climb_append]
  have hpath := ht.pathTo_some h
  rw [pathTo, hclimb] at hpath
  simp only [prefixPath, hn]
  exact List.append_cancel_right hpath

/-- Ranks rise along the path to a node, and the rank of the node is the last one. -/
theorem Rising.pathTo_ascending (ht : t.Rising) (h : t.shape i = some (rank, parent)) :
    (t.pathTo parent).Pairwise (· < ·) ∧ ∀ r ∈ t.pathTo parent, r < rank := by
  induction i using Nat.strongRecOn generalizing rank parent with
  | ind i ih =>
    cases parent with
    | none => exact ⟨.nil, by simp [pathTo]⟩
    | some j =>
      obtain ⟨hj, hc⟩ := ht i rank _ h
      obtain ⟨above, place, hs, hlt⟩ := hc j rfl
      obtain ⟨hasc, hbelow⟩ := ih j (hj j rfl) hs
      rw [ht.pathTo_some hs]
      constructor
      · refine List.pairwise_append.mpr ⟨hasc, List.pairwise_singleton .., fun r hr s hs => ?_⟩
        rw [List.mem_singleton.mp hs]
        exact hbelow r hr
      · intro r hr
        rcases List.mem_append.mp hr with hr | hr
        · exact Nat.lt_trans (hbelow r hr) hlt
        · rw [List.mem_singleton.mp hr]
          exact hlt

theorem carries_root (t : PrefixTree) (rank : Nat) : t.Carries none rank := by
  intro i hi
  cases hi

end PrefixTree

end UsageRules
