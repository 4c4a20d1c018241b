import UsageRules.SortedSet

/-! Finite maps kept as lists of entries with strictly ascending keys. Every change goes through
`SortedMap.update`, whose effect on a lookup is `SortedMap.get?_update`. Maps of counts have a
total. -/

namespace UsageRules

/-- A finite map, listed in strictly ascending order of its keys. -/
structure SortedMap (κ ν : Type) [LT κ] where
  entries : List (κ × ν)
  ascending : (entries.map Prod.fst).Pairwise (· < ·)

namespace SortedMap

variable {κ ν : Type} [LT κ]

theorem ascending_nil : (([] : List (κ × ν)).map Prod.fst).Pairwise (· < ·) := .nil

def empty : SortedMap κ ν := ⟨[], ascending_nil⟩

instance : EmptyCollection (SortedMap κ ν) := ⟨empty⟩
instance : Inhabited (SortedMap κ ν) := ⟨∅⟩

def keys (m : SortedMap κ ν) : SortedSet κ := ⟨m.entries.map Prod.fst, m.ascending⟩

def values (m : SortedMap κ ν) : List ν := m.entries.map Prod.snd

def size (m : SortedMap κ ν) : Nat := m.entries.length

def isEmpty (m : SortedMap κ ν) : Bool := m.entries.isEmpty

/-- The value found under a key in a list of entries. -/
def find [DecidableEq κ] (k : κ) : List (κ × ν) → Option ν
  | [] => none
  | (a, v) :: l => if k = a then some v else find k l

def get? [DecidableEq κ] (m : SortedMap κ ν) (k : κ) : Option ν := find k m.entries

def erase [DecidableEq κ] (m : SortedMap κ ν) (k : κ) : SortedMap κ ν :=
  ⟨m.entries.filter (·.1 ≠ k),
    m.ascending.sublist ((List.filter_sublist (l := m.entries)).map Prod.fst)⟩

variable [DecidableLT κ] [DecidableEq κ]

/-- Replaces the value under a key of an ascending list of entries, or puts a new entry at its
place. -/
def place (k : κ) (f : Option ν → ν) : List (κ × ν) → List (κ × ν)
  | [] => [(k, f none)]
  | (a, v) :: l =>
    if k < a then (k, f none) :: (a, v) :: l
    else if k = a then (a, f (some v)) :: l
    else (a, v) :: place k f l

theorem keys_place (k : κ) (f : Option ν → ν) (l : List (κ × ν)) :
    (place k f l).map Prod.fst = SortedSet.place k (l.map Prod.fst) := by
  induction l with
  | nil => rfl
  | cons e l ih =>
    obtain ⟨a, v⟩ := e
    simp only [place, SortedSet.place, List.map_cons]
    split
    · rfl
    · split
      · rfl
      · simp [ih]

variable [TotalOrder κ]

/-- Sets the value under `k` to `f` of the value that was there. -/
def update (m : SortedMap κ ν) (k : κ) (f : Option ν → ν) : SortedMap κ ν :=
  ⟨place k f m.entries, keys_place k f m.entries ▸ SortedSet.ascending_place m.ascending⟩

def insert (m : SortedMap κ ν) (k : κ) (v : ν) : SortedMap κ ν := m.update k fun _ => v

/-- The map of a list of entries; of entries with one key the last counts. -/
def ofList (l : List (κ × ν)) : SortedMap κ ν := l.foldl (fun m e => m.insert e.1 e.2) ∅

omit [DecidableLT κ] in
theorem find_eq_none_of_lt {k : κ} {l : List (κ × ν)} (h : ∀ a ∈ l.map Prod.fst, k < a) :
    find k l = none := by
  induction l with
  | nil => rfl
  | cons e l ih =>
    obtain ⟨a, v⟩ := e
    have ha : k < a := h a (by simp)
    have hne : k ≠ a := by
      rintro rfl
      exact TotalOrder.irrefl k ha
    rw [find, if_neg hne]
    exact ih fun b hb => h b (List.mem_cons_of_mem _ hb)

theorem find_place {k k' : κ} {f : Option ν → ν} {l : List (κ × ν)}
    (h : (l.map Prod.fst).Pairwise (· < ·)) :
    find k' (place k f l) = if k' = k then some (f (find k l)) else find k' l := by
  induction l with
  | nil => simp [place, find]
  | cons e l ih =>
    obtain ⟨a, v⟩ := e
    obtain ⟨ha, hl⟩ := List.pairwise_cons.mp h
    unfold place
    split
    · rename_i hlt
      have hnone : find k ((a, v) :: l) = none := by
        apply find_eq_none_of_lt
        intro b hb
        rcases List.mem_cons.mp hb with rfl | hb
        · exact hlt
        · exact TotalOrder.trans hlt (ha b hb)
      rw [hnone, find]
    · split
      · rename_i heq
        subst heq
        simp only [find]
        split <;> simp
      · rename_i hne
        simp only [find, if_neg hne, ih hl]
        by_cases hk : k' = a
        · have : k' ≠ k := fun h => hne (h ▸ hk)
          simp [hk, Ne.symm hne]
        · simp [hk]

theorem get?_update (m : SortedMap κ ν) (k k' : κ) (f : Option ν → ν) :
    (m.update k f).get? k' = if k' = k then some (f (m.get? k)) else m.get? k' :=
  find_place m.ascending

@[simp] theorem get?_insert (m : SortedMap κ ν) (k k' : κ) (v : ν) :
    (m.insert k v).get? k' = if k' = k then some v else m.get? k' :=
  get?_update ..

omit [DecidableLT κ] [TotalOrder κ] in
@[simp] theorem get?_empty (k : κ) : (∅ : SortedMap κ ν).get? k = none := rfl

/-- Under a key stands the value of its last entry in the list. -/
theorem get?_ofList (l : List (κ × ν)) (k : κ) :
    (ofList l).get? k = (l.reverse.find? (·.1 = k)).map Prod.snd := by
  suffices h : ∀ m : SortedMap κ ν, (l.foldl (fun m e => m.insert e.1 e.2) m).get? k =
      ((l.reverse.find? (·.1 = k)).map Prod.snd).or (m.get? k) by
    simpa [ofList] using h ∅
  induction l with
  | nil => simp
  | cons e l ih =>
    intro m
    rw [List.foldl_cons, ih, List.reverse_cons, List.find?_append, get?_insert]
    cases l.reverse.find? (·.1 = k) with
    | some _ => simp
    | none =>
      by_cases h : k = e.1
      · simp [h]
      · simp [h, Ne.symm h]

/-- If the value of an entry depends on its key only, repeats do not matter. -/
theorem get?_ofList_map (l : List κ) (value : κ → ν) (k : κ) :
    (ofList (l.map fun a => (a, value a))).get? k = if k ∈ l then some (value k) else none := by
  rw [get?_ofList, ← List.map_reverse, List.find?_map]
  cases hfind : l.reverse.find? ((fun e : κ × ν => decide (e.1 = k)) ∘ fun a => (a, value a)) with
  | some a =>
    have ha : a = k := by simpa using List.find?_some hfind
    have hmem : a ∈ l := List.mem_reverse.mp (List.mem_of_find?_eq_some hfind)
    subst ha
    simp [hmem]
  | none =>
    have hnot : ¬k ∈ l := by
      intro hk
      simpa using List.find?_eq_none.mp hfind k (List.mem_reverse.mpr hk)
    simp [hnot]

end SortedMap

/-! ## Totals -/

def total (counts : List Nat) : Nat := counts.foldr (· + ·) 0

@[simp] theorem total_nil : total [] = 0 := rfl

@[simp] theorem total_cons (n : Nat) (counts : List Nat) :
    total (n :: counts) = n + total counts := rfl

end UsageRules
