import Mathlib.Data.List.Basic
import UsageRules.Proofs.Frequent.PathWeights
import UsageRules.Proofs.Frequent.TreePaths
import UsageRules.Proofs.SortedMap

/-! What a prefix tree lists of its nodes. In a tree that is `Linked` the child lists and the header
are those that the nodes call for. To make a node keeps that (`Linked.attach`), and so does adding a
weight (`Linked.addWeight`), so it holds after the weight was added at a place, whether the child
was there or not (`Linked.addAt`, `Rising.addAt`). -/

namespace UsageRules

namespace PrefixTree

/-- The count of the node with a number. -/
def countAt (t : PrefixTree) (i : Nat) : Nat := (t.nodes[i]?.map (·.count)).getD 0

/-- What the header says that the nodes of a rank count together. -/
def support (t : PrefixTree) (rank : Nat) : Nat :=
  ((t.header.get? rank).map (·.support)).getD 0

/-- The numbers of the nodes of a rank. -/
def numbersOf (t : PrefixTree) (rank : Nat) : List Nat :=
  (List.range t.nodes.size).filter fun i => (t.shape i).any (·.1 = rank)

/-- The header entry that the nodes of a rank call for; a rank without nodes has none. -/
def entryOf? (t : PrefixTree) (rank : Nat) : Option HeaderEntry :=
  if t.numbersOf rank = [] then none
  else some ⟨total ((t.numbersOf rank).map t.countAt), t.numbersOf rank⟩

/-- A place lists the nodes that hang there, of which no two have one rank, and the header lists the
nodes of each rank. -/
structure Linked (t : PrefixTree) : Prop where
  mem_childrenAt : ∀ {place rank i},
    (rank, i) ∈ t.childrenAt place ↔ t.shape i = some (rank, place)
  shape_inj : ∀ {i j s}, t.shape i = some s → t.shape j = some s → i = j
  header_eq : ∀ rank, t.header.get? rank = t.entryOf? rank

variable {t : PrefixTree} {place : Option Nat} {rank i : Nat}

theorem mem_numbersOf : i ∈ t.numbersOf rank ↔ ∃ parent, t.shape i = some (rank, parent) := by
  simp only [numbersOf, List.mem_filter, List.mem_range, Option.any_eq_true, decide_eq_true_eq,
    Prod.exists]
  constructor
  · rintro ⟨-, _, parent, h, rfl⟩
    exact ⟨parent, h⟩
  · rintro ⟨parent, h⟩
    exact ⟨lt_size_of_shape h, rank, parent, h, rfl⟩

theorem nodup_numbersOf (t : PrefixTree) (rank : Nat) : (t.numbersOf rank).Nodup :=
  List.nodup_range.filter _

theorem getD_entryOf? (t : PrefixTree) (rank : Nat) :
    (t.entryOf? rank).getD {} =
      ⟨total ((t.numbersOf rank).map t.countAt), t.numbersOf rank⟩ := by
  rw [entryOf?]
  split
  · rename_i h
    rw [h]
    rfl
  · rfl

theorem Linked.nodesOf_eq (ht : t.Linked) (rank : Nat) : t.nodesOf rank = t.numbersOf rank := by
  rw [nodesOf, ht.header_eq, entryOf?]
  split
  · exact (‹t.numbersOf rank = []›).symm
  · rfl

theorem Linked.support_eq (ht : t.Linked) (rank : Nat) :
    t.support rank = total ((t.numbersOf rank).map t.countAt) := by
  rw [support, ht.header_eq, entryOf?]
  split
  · rename_i h
    rw [h]
    rfl
  · rfl

theorem Linked.mem_ranks (ht : t.Linked) {r : Nat} :
    r ∈ t.ranks ↔ ∃ i parent, t.shape i = some (r, parent) := by
  simp only [ranks, SortedMap.mem_keys_iff, ht.header_eq, entryOf?, ← mem_numbersOf]
  split
  · simp [*]
  · rename_i h
    exact iff_of_true ⟨_, rfl⟩ (List.exists_mem_of_ne_nil _ h)

theorem countAt_size (t : PrefixTree) : t.countAt t.nodes.size = 0 := by
  simp [countAt]

/-- A field that a change leaves alone reads as before, whether the node is changed or not. -/
theorem map_map_ite {α : Type} {f : PrefixNode → α} {g : PrefixNode → PrefixNode}
    (h : ∀ n, f (g n) = f n) (p : Prop) [Decidable p] (node : Option PrefixNode) :
    (node.map fun n => if p then g n else n).map f = node.map f := by
  rw [Option.map_map]
  congr 1
  funext n
  rw [Function.comp, apply_ite f, h, ite_self]

theorem rising_empty : empty.Rising := by
  intro i rank parent h
  simp [shape, empty] at h

theorem linked_empty : empty.Linked where
  mem_childrenAt := by
    intro place rank i
    cases place <;> simp [childrenAt, shape, empty]
  shape_inj := by
    intro i j s h
    simp [shape, empty] at h
  header_eq _ := rfl

/-! ## Making a node -/

section Attach

variable (t : PrefixTree) (place : Option Nat) (rank : Nat)

theorem size_attach : (t.attach place rank).nodes.size = t.nodes.size + 1 := by
  cases place <;> simp [attach]

theorem getElem?_nodes_attach (j : Nat) :
    (t.attach place rank).nodes[j]? =
      (if j = t.nodes.size then some { rank, parent := place } else t.nodes[j]?).map fun n =>
        if place = some j then { n with children := n.children ++ [(rank, t.nodes.size)] }
        else n := by
  cases place with
  | none =>
    simp only [attach, Array.getElem?_push]
    split <;> simp
  | some k =>
    simp only [attach, Array.getElem?_modify, Array.getElem?_push, Option.some.injEq]
    split <;> split <;> simp_all

theorem shape_attach (j : Nat) :
    (t.attach place rank).shape j = if j = t.nodes.size then some (rank, place) else t.shape j := by
  rw [shape, getElem?_nodes_attach, map_map_ite]
  · split <;> rfl
  · exact fun _ => rfl

theorem countAt_attach (j : Nat) : (t.attach place rank).countAt j = t.countAt j := by
  rw [countAt, getElem?_nodes_attach, map_map_ite]
  · split
    · rename_i h
      rw [h, countAt_size]
      rfl
    · rfl
  · exact fun _ => rfl

theorem childrenAt_attach {place : Option Nat} (hplace : ∀ j, place = some j → j < t.nodes.size)
    (other : Option Nat) :
    (t.attach place rank).childrenAt other =
      t.childrenAt other ++ if other = place then [(rank, t.nodes.size)] else [] := by
  cases other with
  | none => cases place <;> simp [childrenAt, attach]
  | some j =>
    simp only [childrenAt, getElem?_nodes_attach]
    by_cases hj : j = t.nodes.size
    · have hne : ¬place = some j := fun h => Nat.lt_irrefl j (hj ▸ hplace j h)
      subst hj
      simp [hne, Ne.symm hne]
    · by_cases heq : place = some j
      · obtain ⟨n, hn⟩ : ∃ n, t.nodes[j]? = some n :=
          ⟨_, Array.getElem?_eq_getElem (hplace j heq)⟩
        simp [hj, heq, hn]
      · simp [hj, heq, Ne.symm heq]

theorem numbersOf_attach (r : Nat) :
    (t.attach place rank).numbersOf r =
      t.numbersOf r ++ if r = rank then [t.nodes.size] else [] := by
  simp only [numbersOf, size_attach, List.range_succ, List.filter_append]
  congr 1
  · refine List.filter_congr fun j hj => ?_
    rw [shape_attach, if_neg (Nat.ne_of_lt (List.mem_range.mp hj))]
  · by_cases h : r = rank
    · simp [shape_attach, h]
    · simp [shape_attach, h, Ne.symm h]

theorem get?_header_attach (r : Nat) :
    (t.attach place rank).header.get? r =
      if r = rank then
        let e := (t.header.get? rank).getD {}
        some { e with nodes := e.nodes ++ [t.nodes.size] }
      else t.header.get? r := by
  cases place <;> simp only [attach, SortedMap.get?_update]

end Attach

/-- Where there is no child with a rank, one can be made. -/
theorem Linked.attach (ht : t.Linked) (hplace : ∀ j, place = some j → j < t.nodes.size)
    (hnew : ∀ i, t.shape i ≠ some (rank, place)) : (t.attach place rank).Linked where
  mem_childrenAt := by
    intro other r i
    rw [childrenAt_attach t rank hplace, shape_attach, List.mem_append, ht.mem_childrenAt]
    by_cases hi : i = t.nodes.size
    · have hnone : ¬t.shape i = some (r, other) := fun h =>
        Nat.ne_of_lt (lt_size_of_shape h) hi
      rw [if_pos hi, or_iff_right hnone]
      by_cases heq : other = place
      · simp [hi, heq, eq_comm]
      · simp [heq, Ne.symm heq]
    · by_cases heq : other = place <;> simp [hi, heq]
  shape_inj := by
    intro i j s hi hj
    rw [shape_attach] at hi hj
    split at hi <;> split at hj
    · omega
    · cases hi
      exact absurd hj (hnew j)
    · cases hj
      exact absurd hi (hnew i)
    · exact ht.shape_inj hi hj
  header_eq := by
    intro r
    have hcounts : (t.attach place rank).countAt = t.countAt := funext (t.countAt_attach place rank)
    rw [get?_header_attach, entryOf?, numbersOf_attach, hcounts, ht.header_eq, ht.header_eq]
    by_cases h : r = rank
    · subst h
      rw [getD_entryOf?]
      simp [total_append, countAt_size]
    · simp [h, entryOf?]

/-! ## Adding to a count -/

section AddWeight

variable (t : PrefixTree) (i rank weight : Nat)

theorem size_addWeight : (t.addWeight i rank weight).nodes.size = t.nodes.size :=
  Array.size_modify

theorem getElem?_nodes_addWeight (j : Nat) :
    (t.addWeight i rank weight).nodes[j]? =
      t.nodes[j]?.map fun n => if i = j then { n with count := n.count + weight } else n := by
  simp only [addWeight, Array.getElem?_modify]
  split <;> simp

theorem shape_addWeight (j : Nat) : (t.addWeight i rank weight).shape j = t.shape j := by
  rw [shape, getElem?_nodes_addWeight, map_map_ite, shape]
  exact fun _ => rfl

theorem countAt_addWeight {i : Nat} (hi : i < t.nodes.size) (j : Nat) :
    (t.addWeight i rank weight).countAt j = t.countAt j + if j = i then weight else 0 := by
  by_cases h : i = j
  · subst h
    simp [countAt, getElem?_nodes_addWeight, Array.getElem?_eq_getElem hi]
  · simp [countAt, getElem?_nodes_addWeight, h, Ne.symm h]

theorem childrenAt_addWeight (place : Option Nat) :
    (t.addWeight i rank weight).childrenAt place = t.childrenAt place := by
  cases place with
  | none => rfl
  | some j =>
    simp only [childrenAt]
    rw [getElem?_nodes_addWeight, map_map_ite]
    exact fun _ => rfl

theorem numbersOf_addWeight (r : Nat) :
    (t.addWeight i rank weight).numbersOf r = t.numbersOf r := by
  simp only [numbersOf, size_addWeight, shape_addWeight]

theorem get?_header_addWeight (r : Nat) :
    (t.addWeight i rank weight).header.get? r =
      (t.header.get? r).map fun e =>
        if r = rank then { e with support := e.support + weight } else e := by
  cases he : t.header.get? rank with
  | none =>
    by_cases h : r = rank
    · simp [addWeight, he, h]
    · simp [addWeight, he, h]
  | some e =>
    by_cases h : r = rank
    · simp [addWeight, he, h]
    · simp [addWeight, he, h]

end AddWeight

/-- What is added to one of several counts is added to their total. -/
theorem total_map_add_at {l : List Nat} (hnodup : l.Nodup) (count : Nat → Nat) (i weight : Nat) :
    total (l.map fun j => count j + if j = i then weight else 0) =
      total (l.map count) + if i ∈ l then weight else 0 := by
  induction l with
  | nil => rfl
  | cons j l ih =>
    obtain ⟨hj, hl⟩ := List.nodup_cons.mp hnodup
    simp only [List.map_cons, total_cons, ih hl, List.mem_cons]
    by_cases h : i = j
    · subst h
      simp only [if_true, hj, if_false, true_or]
      omega
    · simp only [Ne.symm h, h, if_false, false_or]
      omega

/-- A weight may be added to a node and to the support of its rank. -/
theorem Linked.addWeight (ht : t.Linked) {parent : Option Nat}
    (hs : t.shape i = some (rank, parent)) (weight : Nat) : (t.addWeight i rank weight).Linked where
  mem_childrenAt := by
    intro place r j
    rw [childrenAt_addWeight, shape_addWeight, ht.mem_childrenAt]
  shape_inj := by
    intro j k s hj hk
    rw [shape_addWeight] at hj hk
    exact ht.shape_inj hj hk
  header_eq := by
    intro r
    have hcounts := funext (t.countAt_addWeight rank weight (lt_size_of_shape hs))
    have hmem : i ∈ t.numbersOf r ↔ r = rank := by
      rw [mem_numbersOf, hs]
      simp [eq_comm]
    rw [get?_header_addWeight, ht.header_eq, entryOf?, entryOf?, numbersOf_addWeight, hcounts,
      total_map_add_at (t.nodup_numbersOf r)]
    by_cases hnil : t.numbersOf r = []
    · simp [hnil]
    · by_cases h : r = rank
      · subst h
        simp [hnil, hmem.mpr rfl]
      · simp [hnil, hmem, h]

/-! ## Adding at a place -/

theorem Carries.lt_size (h : t.Carries place rank) : ∀ j, place = some j → j < t.nodes.size := by
  intro j hj
  obtain ⟨_, _, hs, -⟩ := h j hj
  exact lt_size_of_shape hs

/-- The weight is added to the child that is there, or to one that is made. -/
theorem Linked.addAt_cases (ht : t.Linked) (place : Option Nat) (rank weight : Nat) :
    (∃ i, t.shape i = some (rank, place) ∧
      t.addAt place rank weight = (t.addWeight i rank weight, i)) ∨
    (∀ i, t.shape i ≠ some (rank, place)) ∧ t.addAt place rank weight =
      ((t.attach place rank).addWeight t.nodes.size rank weight, t.nodes.size) := by
  cases hfind : (t.childrenAt place).find? (·.1 = rank) with
  | some child =>
    have hrank : child.1 = rank := by simpa using List.find?_some hfind
    refine .inl ⟨child.2, ht.mem_childrenAt.mp ?_, by simp only [addAt, reach, hfind]⟩
    exact hrank ▸ List.mem_of_find?_eq_some hfind
  | none =>
    refine .inr ⟨fun i hs => ?_, by simp only [addAt, reach, hfind]⟩
    simpa using List.find?_eq_none.mp hfind _ (ht.mem_childrenAt.mpr hs)

section AddAt

variable (ht : t.Linked)
include ht

theorem Linked.addAt (hplace : ∀ j, place = some j → j < t.nodes.size) (weight : Nat) :
    (t.addAt place rank weight).1.Linked := by
  rcases ht.addAt_cases place rank weight with ⟨i, hs, h⟩ | ⟨hnew, h⟩
  · rw [h]
    exact ht.addWeight hs weight
  · rw [h]
    have hs : (t.attach place rank).shape t.nodes.size = some (rank, place) := by
      rw [shape_attach, if_pos rfl]
    exact (ht.attach hplace hnew).addWeight hs weight

/-- The nodes that were there keep their ranks and parents. -/
theorem Linked.shape_addAt_of_lt {j : Nat} (hj : j < t.nodes.size) (weight : Nat) :
    (t.addAt place rank weight).1.shape j = t.shape j := by
  rcases ht.addAt_cases place rank weight with ⟨i, -, h⟩ | ⟨-, h⟩
  · rw [h, shape_addWeight]
  · rw [h, shape_addWeight, shape_attach, if_neg (Nat.ne_of_lt hj)]

/-- The number that comes back is that of the child. -/
theorem Linked.shape_addAt (place : Option Nat) (rank weight : Nat) :
    (t.addAt place rank weight).1.shape (t.addAt place rank weight).2 = some (rank, place) := by
  rcases ht.addAt_cases place rank weight with ⟨i, hs, h⟩ | ⟨-, h⟩
  · rw [h, shape_addWeight, hs]
  · rw [h, shape_addWeight, shape_attach, if_pos rfl]

/-- A node is the child or was there before. -/
theorem Linked.shape_of_addAt {weight j r : Nat} {parent : Option Nat}
    (hs : (t.addAt place rank weight).1.shape j = some (r, parent)) :
    (r, parent) = (rank, place) ∨ t.shape j = some (r, parent) := by
  rcases ht.addAt_cases place rank weight with ⟨i, -, h⟩ | ⟨-, h⟩
  · rw [h, shape_addWeight] at hs
    exact .inr hs
  · rw [h, shape_addWeight, shape_attach] at hs
    split at hs
    · exact .inl (Option.some.inj hs).symm
    · exact .inr hs

theorem Linked.exists_rank_addAt {weight r : Nat} :
    (∃ i parent, (t.addAt place rank weight).1.shape i = some (r, parent)) ↔
      (∃ i parent, t.shape i = some (r, parent)) ∨ r = rank := by
  constructor
  · rintro ⟨i, parent, hs⟩
    rcases ht.shape_of_addAt hs with heq | hs
    · exact .inr (Prod.mk.inj heq).1
    · exact .inl ⟨i, parent, hs⟩
  · rintro (⟨i, parent, hs⟩ | rfl)
    · exact ⟨i, parent, (ht.shape_addAt_of_lt (lt_size_of_shape hs) weight).trans hs⟩
    · exact ⟨_, _, ht.shape_addAt place r weight⟩

theorem Linked.carries_addAt {other : Option Nat} {r : Nat} (h : t.Carries other r) (weight : Nat) :
    (t.addAt place rank weight).1.Carries other r := by
  intro i hi
  obtain ⟨above, parent, hs, hlt⟩ := h i hi
  exact ⟨above, parent, (ht.shape_addAt_of_lt (lt_size_of_shape hs) weight).trans hs, hlt⟩

end AddAt

theorem Rising.addAt (hr : t.Rising) (ht : t.Linked) (hc : t.Carries place rank) (weight : Nat) :
    (t.addAt place rank weight).1.Rising := by
  intro i r parent hs
  by_cases hi : i < t.nodes.size
  · rw [ht.shape_addAt_of_lt hi] at hs
    exact ⟨(hr i r parent hs).1, ht.carries_addAt (hr i r parent hs).2 weight⟩
  · rcases ht.shape_of_addAt hs with heq | hs
    · cases heq
      exact ⟨fun j hj => Nat.lt_of_lt_of_le (hc.lt_size j hj) (Nat.le_of_not_lt hi),
        ht.carries_addAt hc weight⟩
    · exact absurd (lt_size_of_shape hs) hi

/-- The path to the child is that to its parent and the child's rank. -/
theorem Rising.pathTo_addAt (hr : t.Rising) (ht : t.Linked) (hc : t.Carries place rank)
    (weight : Nat) :
    (t.addAt place rank weight).1.pathTo (t.addAt place rank weight).2 =
      t.pathTo place ++ [rank] := by
  rw [(hr.addAt ht hc weight).pathTo_some (ht.shape_addAt place rank weight)]
  congr 1
  exact hr.pathTo_congr (fun j hj => ht.shape_addAt_of_lt hj weight) hc.lt_size

end PrefixTree

end UsageRules
