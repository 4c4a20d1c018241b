/-! Finite sets kept as strictly ascending lists, for any type with a decidable total order.
The list is the canonical form: sets with the same members are equal (`SortedSet.ext`). -/

namespace UsageRules

/-- The order of a type is strict and total. -/
class TotalOrder (α : Type) [LT α] : Prop where
  irrefl (a : α) : ¬a < a
  trans {a b c : α} : a < b → b < c → a < c
  connected (a b : α) : a < b ∨ a = b ∨ b < a

instance : TotalOrder Nat where
  irrefl := Nat.lt_irrefl
  trans := Nat.lt_trans
  connected := Nat.lt_trichotomy

/-- Texts are ordered by code point. -/
instance : TotalOrder String where
  irrefl := String.lt_irrefl
  trans := String.lt_trans
  connected := Std.lt_trichotomy

instance : TotalOrder Int64 where
  irrefl _ := Int64.lt_irrefl
  trans := Int64.lt_trans
  connected := Std.lt_trichotomy

/-- A finite set, listed in strictly ascending order. -/
structure SortedSet (α : Type) [LT α] where
  toList : List α
  ascending : toList.Pairwise (· < ·)
  deriving DecidableEq

namespace SortedSet

variable {α : Type} [LT α]

instance : Membership α (SortedSet α) := ⟨fun s a => a ∈ s.toList⟩

instance [DecidableEq α] (a : α) (s : SortedSet α) : Decidable (a ∈ s) :=
  inferInstanceAs (Decidable (a ∈ s.toList))

instance : HasSubset (SortedSet α) := ⟨fun s t => ∀ a ∈ s.toList, a ∈ t.toList⟩

instance [DecidableEq α] (s t : SortedSet α) : Decidable (s ⊆ t) :=
  inferInstanceAs (Decidable (∀ a ∈ s.toList, a ∈ t.toList))

theorem mem_toList {a : α} {s : SortedSet α} : a ∈ s.toList ↔ a ∈ s := .rfl

theorem eq_of_toList_eq {s t : SortedSet α} (h : s.toList = t.toList) : s = t := by
  cases s
  cases t
  cases h
  rfl

theorem subset_iff {s t : SortedSet α} : s ⊆ t ↔ ∀ a ∈ s, a ∈ t := .rfl

/-! ## Construction -/

def empty : SortedSet α := ⟨[], .nil⟩

instance : EmptyCollection (SortedSet α) := ⟨empty⟩
instance : Inhabited (SortedSet α) := ⟨∅⟩

def singleton (a : α) : SortedSet α := ⟨[a], List.pairwise_singleton _ a⟩

def size (s : SortedSet α) : Nat := s.toList.length

def isEmpty (s : SortedSet α) : Bool := s.toList.isEmpty

def filter (p : α → Bool) (s : SortedSet α) : SortedSet α :=
  ⟨s.toList.filter p, s.ascending.filter p⟩

def erase [DecidableEq α] (s : SortedSet α) (a : α) : SortedSet α := s.filter (· ≠ a)

@[simp] theorem mem_empty {a : α} : ¬a ∈ (∅ : SortedSet α) := List.not_mem_nil

@[simp] theorem mem_singleton {a b : α} : a ∈ singleton b ↔ a = b := List.mem_singleton

@[simp] theorem mem_filter {p : α → Bool} {a : α} {s : SortedSet α} :
    a ∈ s.filter p ↔ a ∈ s ∧ p a = true := List.mem_filter

@[simp] theorem mem_erase [DecidableEq α] {a b : α} {s : SortedSet α} :
    a ∈ s.erase b ↔ a ∈ s ∧ a ≠ b := by simp [erase]

theorem erase_of_not_mem [DecidableEq α] {a : α} {s : SortedSet α} (h : ¬a ∈ s) :
    s.erase a = s := by
  apply eq_of_toList_eq
  refine List.filter_eq_self.mpr fun b hb => decide_eq_true ?_
  rintro rfl
  exact h hb

variable [DecidableLT α] [DecidableEq α]

/-- Puts `x` at its place in an ascending list, unless it is there. -/
def place (x : α) : List α → List α
  | [] => [x]
  | a :: l => if x < a then x :: a :: l else if x = a then a :: l else a :: place x l

theorem mem_place {x y : α} {l : List α} : y ∈ place x l ↔ y = x ∨ y ∈ l := by
  induction l with
  | nil => simp [place]
  | cons a l ih =>
    unfold place
    split
    · simp
    · split
      · rename_i h
        simp [h]
      · simp only [List.mem_cons, ih]
        constructor
        · rintro (h | h | h) <;> simp [h]
        · rintro (h | h | h) <;> simp [h]

variable [TotalOrder α]

theorem ascending_place {x : α} {l : List α} (h : l.Pairwise (· < ·)) :
    (place x l).Pairwise (· < ·) := by
  induction l with
  | nil => exact List.pairwise_singleton _ x
  | cons a l ih =>
    obtain ⟨ha, hl⟩ := List.pairwise_cons.mp h
    unfold place
    split
    · rename_i hx
      refine List.pairwise_cons.mpr ⟨fun b hb => ?_, h⟩
      rcases List.mem_cons.mp hb with rfl | hb
      · exact hx
      · exact TotalOrder.trans hx (ha b hb)
    · rename_i hx
      split
      · exact h
      · rename_i hne
        refine List.pairwise_cons.mpr ⟨fun b hb => ?_, ih hl⟩
        rcases mem_place.mp hb with rfl | hb
        · exact (TotalOrder.connected b a).resolve_left hx |>.resolve_left hne
        · exact ha b hb

def insert (a : α) (s : SortedSet α) : SortedSet α :=
  ⟨place a s.toList, ascending_place s.ascending⟩

/-- The set of the elements of a list, in any order and with repeats. -/
def ofList (l : List α) : SortedSet α := l.foldr insert ∅

instance : Union (SortedSet α) := ⟨fun s t => s.toList.foldr insert t⟩

@[simp] theorem mem_insert {a b : α} {s : SortedSet α} : a ∈ s.insert b ↔ a = b ∨ a ∈ s :=
  mem_place

theorem mem_foldr_insert {a : α} {l : List α} {s : SortedSet α} :
    a ∈ l.foldr insert s ↔ a ∈ l ∨ a ∈ s := by
  induction l with
  | nil => simp
  | cons b l ih => simp [ih, or_assoc]

@[simp] theorem mem_ofList {a : α} {l : List α} : a ∈ ofList l ↔ a ∈ l := by
  simp [ofList, mem_foldr_insert]

@[simp] theorem mem_union {a : α} {s t : SortedSet α} : a ∈ s ∪ t ↔ a ∈ s ∨ a ∈ t :=
  mem_foldr_insert

/-! ## Canonical form -/

omit [DecidableLT α] [DecidableEq α] in
/-- Ascending lists with the same members are equal. -/
theorem ascending_ext {l m : List α} (hl : l.Pairwise (· < ·)) (hm : m.Pairwise (· < ·))
    (h : ∀ a, a ∈ l ↔ a ∈ m) : l = m := by
  induction l generalizing m with
  | nil =>
    cases m with
    | nil => rfl
    | cons b m => exact absurd ((h b).mpr List.mem_cons_self) List.not_mem_nil
  | cons a l ih =>
    cases m with
    | nil => exact absurd ((h a).mp List.mem_cons_self) List.not_mem_nil
    | cons b m =>
      obtain ⟨ha, htail⟩ := List.pairwise_cons.mp hl
      obtain ⟨hb, htail'⟩ := List.pairwise_cons.mp hm
      have hab : a = b := by
        rcases List.mem_cons.mp ((h a).mp List.mem_cons_self) with hab | hab
        · exact hab
        rcases List.mem_cons.mp ((h b).mpr List.mem_cons_self) with hba | hba
        · exact hba.symm
        exact absurd (TotalOrder.trans (ha b hba) (hb a hab)) (TotalOrder.irrefl a)
      subst hab
      congr 1
      refine ih htail htail' fun c => ⟨fun hc => ?_, fun hc => ?_⟩
      · rcases List.mem_cons.mp ((h c).mp (List.mem_cons_of_mem _ hc)) with rfl | hc'
        · exact absurd (ha c hc) (TotalOrder.irrefl c)
        · exact hc'
      · rcases List.mem_cons.mp ((h c).mpr (List.mem_cons_of_mem _ hc)) with rfl | hc'
        · exact absurd (hb c hc) (TotalOrder.irrefl c)
        · exact hc'

omit [DecidableLT α] [DecidableEq α] in
@[ext] theorem ext {s t : SortedSet α} (h : ∀ a, a ∈ s ↔ a ∈ t) : s = t := by
  cases s with
  | mk l hl =>
    cases t with
    | mk m hm =>
      have : l = m := ascending_ext hl hm h
      subst this
      rfl

omit [DecidableLT α] [DecidableEq α] in
theorem nodup_toList (s : SortedSet α) : s.toList.Nodup :=
  s.ascending.imp fun {a b} h (heq : a = b) => TotalOrder.irrefl b (heq ▸ h)

@[simp] theorem ofList_toList (s : SortedSet α) : ofList s.toList = s := by
  ext a
  simp [mem_toList]

theorem ofList_eq_iff {l : List α} {s : SortedSet α} : ofList l = s ↔ ∀ a, a ∈ l ↔ a ∈ s := by
  simp only [SortedSet.ext_iff, mem_ofList]

end SortedSet

end UsageRules
