import Mathlib.Data.List.Basic
import UsageRules.Frequent.Mining
import UsageRules.SupportIndex

/-! Support. The more items are asked for, the fewer transactions contain them (`supportIn_anti`).
An index of transactions gives every support exactly (`SupportIndex.support_build`). -/

namespace UsageRules

/-! ## Counting transactions -/

theorem supportIn_anti {items items' : ItemSet} (h : items ⊆ items')
    (transactions : List ItemSet) :
    supportIn transactions items' ≤ supportIn transactions items :=
  List.countP_mono_left fun t _ ht => by
    simp only [decide_eq_true_eq, SortedSet.subset_iff] at ht ⊢
    exact fun a ha => ht a (h a ha)

theorem supportIn_le_itemSupport {items : ItemSet} {item : String} (h : item ∈ items)
    (transactions : List ItemSet) :
    supportIn transactions items ≤ itemSupport transactions item :=
  List.countP_mono_left fun t _ ht => by
    simp only [decide_eq_true_eq, SortedSet.subset_iff] at ht ⊢
    exact ht item h

theorem supportIn_le_length (transactions : List ItemSet) (items : ItemSet) :
    supportIn transactions items ≤ transactions.length := List.countP_le_length

namespace SupportIndex

variable {transactions : List ItemSet} {test test' : ItemSet → Bool} {t : ItemSet}

/-! ## Numbers of transactions -/

/-- The set holds the numbers of the transactions that pass a test, and no others. -/
def Numbers (transactions : List ItemSet) (test : ItemSet → Bool) (s : Std.TreeSet Nat) : Prop :=
  ∀ number, number ∈ s ↔ number ∈ transactions.findIdxs test

namespace Numbers

variable {s s' : Std.TreeSet Nat}

theorem size_eq (h : Numbers transactions test s) : s.size = transactions.countP test := by
  have hordered : s.toList.Pairwise (· < ·) :=
    Std.TreeSet.ordered_toList.imp Nat.compare_eq_lt.mp
  have heq : s.toList = transactions.findIdxs test :=
    SortedSet.ascending_ext hordered List.pairwise_findIdxs fun number =>
      Std.TreeSet.mem_toList.trans (h number)
  rw [← Std.TreeSet.length_toList, heq, List.length_findIdxs]

theorem isEmpty_iff (h : Numbers transactions test s) :
    s.isEmpty = true ↔ ¬∃ t ∈ transactions, test t = true := by
  rw [Std.TreeSet.isEmpty_eq_size_eq_zero, beq_iff_eq, h.size_eq, List.countP_eq_zero]
  simp only [not_exists, not_and]

theorem congr (h : Numbers transactions test s)
    (heq : ∀ t ∈ transactions, test' t = test t) : Numbers transactions test' s := by
  intro number
  simp only [h number, List.mem_findIdxs_iff_exists_getElem_pos,
    heq _ (List.getElem_mem _)]

theorem inter (h : Numbers transactions test s) (h' : Numbers transactions test' s') :
    Numbers transactions (fun t => test t && test' t) (s ∩ s') := by
  intro number
  rw [Std.TreeSet.mem_inter_iff, h, h']
  simp only [List.mem_findIdxs_iff_exists_getElem_pos, Bool.and_eq_true]
  constructor
  · rintro ⟨⟨hlt, htest⟩, _, htest'⟩
    exact ⟨hlt, htest, htest'⟩
  · rintro ⟨hlt, htest, htest'⟩
    exact ⟨⟨hlt, htest⟩, hlt, htest'⟩

/-- The next transaction has the next number. -/
theorem concat (h : Numbers transactions test s)
    (hnext : ∀ number, number ∈ s' ↔
      (test t = true ∧ number = transactions.length) ∨ number ∈ s) :
    Numbers (transactions ++ [t]) test s' := by
  intro number
  rw [hnext, h, List.findIdxs_append, Nat.zero_add, List.findIdxs_singleton, List.mem_append,
    or_comm]
  split
  · rename_i htest
    simp [htest]
  · rename_i hnot
    simp [hnot]

end Numbers

/-! ## Building the index -/

/-- The row of an item that is in no transaction is empty. -/
def rowOf (rows : SortedMap String (Std.TreeSet Nat)) (item : String) : Std.TreeSet Nat :=
  (rows.get? item).getD ∅

variable {number number' : Nat} {item : String} {rows : SortedMap String (Std.TreeSet Nat)}

theorem mem_rowOf_enter {item' : String} :
    number' ∈ rowOf (enter number rows item') item ↔
      (item = item' ∧ number' = number) ∨ number' ∈ rowOf rows item := by
  rw [rowOf, enter, SortedMap.get?_update, rowOf]
  split
  · rename_i heq
    rw [Option.getD_some, Std.TreeSet.mem_insert, Nat.compare_eq_eq, ← heq]
    simp [eq_comm]
  · rename_i hne
    simp [hne]

theorem mem_rowOf_foldl_enter {items : List String} :
    number' ∈ rowOf (items.foldl (enter number) rows) item ↔
      (item ∈ items ∧ number' = number) ∨ number' ∈ rowOf rows item := by
  induction items generalizing rows with
  | nil => simp
  | cons item' items ih =>
    rw [List.foldl_cons, ih, mem_rowOf_enter, List.mem_cons]
    simp only [or_and_right, or_assoc, or_left_comm]

/-- The index counts the transactions, and the row of each item holds the numbers of those that
contain it. -/
structure Indexes (ix : SupportIndex) (transactions : List ItemSet) : Prop where
  count_eq : ix.count = transactions.length
  numbers : ∀ item, Numbers transactions (fun t => decide (item ∈ t)) (rowOf ix.rows item)

theorem indexes_empty : Indexes {} [] := by
  refine ⟨rfl, fun item number => ?_⟩
  simp [rowOf]

theorem Indexes.add {ix : SupportIndex} (h : ix.Indexes transactions) (t : ItemSet) :
    (ix.add t).Indexes (transactions ++ [t]) := by
  refine ⟨?_, fun item => (h.numbers item).concat fun number => ?_⟩
  · rw [SupportIndex.add, h.count_eq, List.length_append, List.length_singleton]
  · rw [SupportIndex.add, mem_rowOf_foldl_enter, h.count_eq, SortedSet.mem_toList,
      decide_eq_true_eq]

theorem Indexes.foldl_add {ix : SupportIndex} {indexed : List ItemSet} (h : ix.Indexes indexed)
    (transactions : List ItemSet) :
    (transactions.foldl SupportIndex.add ix).Indexes (indexed ++ transactions) := by
  induction transactions generalizing ix indexed with
  | nil => rwa [List.append_nil]
  | cons t transactions ih =>
    rw [List.foldl_cons, List.append_cons]
    exact ih (h.add t)

theorem indexes_build (transactions : List ItemSet) :
    (build transactions).Indexes transactions :=
  indexes_empty.foldl_add transactions

/-! ## Reading the index -/

/-- What is left after some items: the transactions that pass a test, which are all of them before
the first item. -/
def Remaining (transactions : List ItemSet) (test : ItemSet → Bool) :
    Option (Std.TreeSet Nat) → Prop
  | none => ∀ t ∈ transactions, test t = true
  | some kept => Numbers transactions test kept

variable {left : Option (Std.TreeSet Nat)}

theorem Remaining.meet {row : Std.TreeSet Nat} (hleft : Remaining transactions test left)
    (hrow : Numbers transactions test' row) :
    Numbers transactions (fun t => test t && test' t) (meet left row) := by
  cases left with
  | none => exact hrow.congr fun t ht => by rw [hleft t ht, Bool.true_and]
  | some kept => exact Numbers.inter hleft hrow

section Reading

variable {ix : SupportIndex} (h : ix.Indexes transactions)

include h

/-- An item narrows what is left down to the transactions that contain it too, unless there is
none. -/
theorem Indexes.narrow_cases (hleft : Remaining transactions test left) (item : String) :
    ((¬∃ t ∈ transactions, (test t && decide (item ∈ t)) = true) ∧ ix.narrow left item = none) ∨
      ∃ next, Numbers transactions (fun t => test t && decide (item ∈ t)) next ∧
        ix.narrow left item = some next := by
  have hrow := h.numbers item
  rw [rowOf] at hrow
  rw [narrow]
  cases hget : ix.rows.get? item with
  | none =>
    rw [hget] at hrow
    have hno := hrow.isEmpty_iff.mp Std.TreeSet.isEmpty_emptyc
    refine .inl ⟨?_, rfl⟩
    rintro ⟨t, ht, hpass⟩
    exact hno ⟨t, ht, (Bool.and_eq_true_iff.mp hpass).2⟩
  | some row =>
    rw [hget] at hrow
    have hnext := hleft.meet hrow
    by_cases hempty : (SupportIndex.meet left row).isEmpty = true
    · exact .inl ⟨hnext.isEmpty_iff.mp hempty, if_pos hempty⟩
    · exact .inr ⟨_, hnext, if_neg hempty⟩

/-- The other items are counted among what is left; to stop early changes no count. -/
theorem Indexes.supportFrom_eq (hleft : Remaining transactions test left) (items : List String) :
    ix.supportFrom left items = transactions.countP fun t => test t && items.all (· ∈ t) := by
  induction items generalizing left test with
  | nil =>
    simp only [List.all_nil, Bool.and_true]
    cases left with
    | none => rw [supportFrom, h.count_eq, List.countP_eq_length.mpr hleft]
    | some kept => exact Numbers.size_eq hleft
  | cons item items ih =>
    rw [supportFrom]
    rcases h.narrow_cases hleft item with ⟨hnone, hnarrow⟩ | ⟨next, hnext, hnarrow⟩
    · rw [hnarrow]
      refine (List.countP_eq_zero.mpr fun t ht hall => hnone ⟨t, ht, ?_⟩).symm
      rw [List.all_cons, ← Bool.and_assoc, Bool.and_eq_true] at hall
      exact hall.1
    · rw [hnarrow]
      have hkept : Remaining transactions (fun t => test t && decide (item ∈ t)) (some next) :=
        hnext
      simp only [ih hkept, List.all_cons, Bool.and_assoc]

/-- An index counts the transactions that contain every listed item. -/
theorem Indexes.support_eq (items : List String) :
    ix.support items = transactions.countP fun t => items.all (· ∈ t) := by
  have hall : Remaining transactions (fun _ => true) none := fun _ _ => rfl
  rw [support, h.supportFrom_eq hall]
  simp only [Bool.true_and]

end Reading

theorem support_build (transactions : List ItemSet) (items : List String) :
    (build transactions).support items = transactions.countP fun t => items.all (· ∈ t) :=
  (indexes_build transactions).support_eq items

theorem support_build_of_mem_iff {items : List String} {set : ItemSet}
    (h : ∀ item, item ∈ items ↔ item ∈ set) (transactions : List ItemSet) :
    (build transactions).support items = supportIn transactions set := by
  rw [support_build]
  apply List.countP_congr
  intro t _
  simp [SortedSet.subset_iff, h]

theorem support_build_items (transactions : List ItemSet) (items : ItemSet) :
    (build transactions).support items.toList = supportIn transactions items :=
  support_build_of_mem_iff (fun _ => SortedSet.mem_toList) transactions

end SupportIndex

end UsageRules
