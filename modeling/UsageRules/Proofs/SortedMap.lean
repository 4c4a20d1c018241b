import UsageRules.SortedMap

/-! What the keys and the values of a sorted map are, in terms of lookups, by which maps can be told
apart (`SortedMap.eq_of_get?_eq`). A map of counts tallies what it was raised for
(`SortedMap.tallies_foldl_update`). -/

namespace UsageRules

namespace SortedMap

variable {κ ν : Type} [LT κ] [DecidableEq κ]

omit [LT κ] in
theorem find_isSome {k : κ} {l : List (κ × ν)} : (find k l).isSome = true ↔ k ∈ l.map Prod.fst := by
  induction l with
  | nil => simp [find]
  | cons e l ih =>
    obtain ⟨a, v⟩ := e
    by_cases h : k = a
    · simp [find, h]
    · simp [find, h, ih]

theorem mem_keys_iff {k : κ} {m : SortedMap κ ν} : k ∈ m.keys ↔ ∃ v, m.get? k = some v := by
  rw [← Option.isSome_iff_exists]
  exact find_isSome.symm

section
variable [TotalOrder κ]

theorem find_eq_some_iff {k : κ} {v : ν} {l : List (κ × ν)}
    (h : (l.map Prod.fst).Pairwise (· < ·)) : find k l = some v ↔ (k, v) ∈ l := by
  induction l with
  | nil => simp [find]
  | cons e l ih =>
    obtain ⟨a, w⟩ := e
    obtain ⟨ha, hl⟩ := List.pairwise_cons.mp h
    by_cases hk : k = a
    · subst hk
      have hnot : (k, v) ∉ l := fun hmem =>
        TotalOrder.irrefl k (ha k (List.mem_map_of_mem hmem))
      simp [find, hnot, eq_comm]
    · simp [find, hk, ih hl]

theorem mem_values_iff {v : ν} {m : SortedMap κ ν} : v ∈ m.values ↔ ∃ k, m.get? k = some v := by
  simp only [values, get?, find_eq_some_iff m.ascending, List.mem_map, Prod.exists, exists_eq_right]

end

section
variable [DecidableLT κ] [TotalOrder κ]

/-- Of values under keys of their own the last with a key counts. -/
theorem get?_ofList_keyed (l : List ν) (key : ν → κ) (k : κ) :
    (ofList (l.map fun v => (key v, v))).get? k = l.reverse.find? (key · = k) := by
  rw [get?_ofList, ← List.map_reverse, List.find?_map, Option.map_map]
  exact Option.map_id_apply

/-- Among the values the one with a key is found. -/
theorem find?_values_ofList_keyed (l : List ν) (key : ν → κ) (k : κ) :
    (ofList (l.map fun v => (key v, v))).values.find? (key · = k) =
      l.reverse.find? (key · = k) := by
  have hvalue : ∀ v, v ∈ (ofList (l.map fun v => (key v, v))).values ↔
      l.reverse.find? (key · = key v) = some v := by
    intro v
    rw [mem_values_iff]
    simp only [get?_ofList_keyed]
    constructor
    · rintro ⟨k', hfind⟩
      have hk' : key v = k' := by simpa using List.find?_some hfind
      rwa [hk']
    · exact fun hfind => ⟨key v, hfind⟩
  cases hfind : (ofList (l.map fun v => (key v, v))).values.find? (key · = k) with
  | some v =>
    have hk : key v = k := by simpa using List.find?_some hfind
    rw [← hk, (hvalue v).mp (List.mem_of_find?_eq_some hfind)]
  | none =>
    cases hlast : l.reverse.find? (key · = k) with
    | none => rfl
    | some v =>
      have hk : key v = k := by simpa using List.find?_some hlast
      have hmem := (hvalue v).mpr (by rw [hk, hlast])
      exact absurd hk (by simpa using List.find?_eq_none.mp hfind v hmem)

theorem place_place (k : κ) (v : ν) (l : List (κ × ν)) :
    place k (fun _ => v) (place k (fun _ => v) l) = place k (fun _ => v) l := by
  have hself := TotalOrder.irrefl k
  induction l with
  | nil => simp [place, hself]
  | cons e l ih =>
    obtain ⟨a, w⟩ := e
    by_cases hlt : k < a
    · simp [place, hlt, hself]
    by_cases heq : k = a
    · subst heq
      simp [place, hself]
    · simp [place, hlt, heq, ih]

theorem insert_insert (m : SortedMap κ ν) (k : κ) (v : ν) :
    (m.insert k v).insert k v = m.insert k v := by
  simp only [insert, update, place_place]

theorem total_place {k : κ} {f : Option Nat → Nat} {l : List (κ × Nat)}
    (h : (l.map Prod.fst).Pairwise (· < ·)) :
    total ((place k f l).map Prod.snd) + (find k l).getD 0 =
      total (l.map Prod.snd) + f (find k l) := by
  induction l with
  | nil => simp [place, find]
  | cons e l ih =>
    obtain ⟨a, n⟩ := e
    obtain ⟨ha, hl⟩ := List.pairwise_cons.mp h
    unfold place
    split
    · rename_i hlt
      have hnone : find k ((a, n) :: l) = none := by
        apply find_eq_none_of_lt
        intro b hb
        rcases List.mem_cons.mp hb with rfl | hb
        · exact hlt
        · exact TotalOrder.trans hlt (ha b hb)
      rw [hnone]
      simp [Nat.add_comm]
    · split
      · rename_i heq
        simp only [find, if_pos heq, List.map_cons, total_cons, Option.getD_some]
        omega
      · rename_i hne
        have := ih hl
        simp only [find, if_neg hne, List.map_cons, total_cons]
        omega

/-- A count that is changed changes the total by as much. -/
theorem total_values_update (m : SortedMap κ Nat) (k : κ) (f : Option Nat → Nat) :
    total (m.update k f).values + (m.get? k).getD 0 = total m.values + f (m.get? k) :=
  total_place m.ascending

end

section
variable [TotalOrder κ]

theorem eq_of_get?_eq {m m' : SortedMap κ ν} (h : ∀ k, m.get? k = m'.get? k) : m = m' := by
  have hkeys : ∀ m : SortedMap κ ν, m.entries.Pairwise fun e e' => e.1 < e'.1 :=
    fun m => List.pairwise_map.mp m.ascending
  have hnodup : ∀ m : SortedMap κ ν, m.entries.Nodup := fun m =>
    (hkeys m).imp fun {e e'} hlt (heq : e = e') => TotalOrder.irrefl e'.1 (heq ▸ hlt)
  have hperm : m.entries.Perm m'.entries := by
    refine (List.perm_ext_iff_of_nodup (hnodup m) (hnodup m')).mpr fun ⟨k, v⟩ => ?_
    rw [← find_eq_some_iff m.ascending, ← find_eq_some_iff m'.ascending]
    exact iff_of_eq (congrArg (· = some v) (h k))
  have heq : m.entries = m'.entries := hperm.eq_of_pairwise
    (fun e e' _ _ hlt hlt' => absurd (TotalOrder.trans hlt hlt') (TotalOrder.irrefl e.1))
    (hkeys m) (hkeys m')
  cases m
  cases m'
  cases heq
  rfl

end

/-! ## Counts -/

/-- The entries of the map are the counts that are not zero. -/
def Tallies (m : SortedMap κ Nat) (count : κ → Nat) : Prop :=
  ∀ k, m.get? k = if count k = 0 then none else some (count k)

section
variable {m m' : SortedMap κ Nat} {count count' : κ → Nat}

theorem tallies_empty : (∅ : SortedMap κ Nat).Tallies fun _ => 0 := fun _ => rfl

theorem Tallies.congr (h : m.Tallies count) (hcount : ∀ k, count k = count' k) :
    m.Tallies count' := by
  intro k
  rw [h k, hcount]

theorem Tallies.getD_get? (h : m.Tallies count) (k : κ) : (m.get? k).getD 0 = count k := by
  rw [h k]
  split
  · rename_i hzero
    rw [hzero, Option.getD_none]
  · rfl

theorem Tallies.eq_iff [TotalOrder κ] (h : m.Tallies count) (h' : m'.Tallies count') :
    m = m' ↔ ∀ k, count k = count' k := by
  constructor
  · rintro rfl k
    rw [← h.getD_get? k, h'.getD_get? k]
  · intro hcount
    exact eq_of_get?_eq fun k => by rw [h k, h' k, hcount]

variable [DecidableLT κ] [TotalOrder κ]

theorem Tallies.update (h : m.Tallies count) (k : κ) :
    (m.update k fun n => n.getD 0 + 1).Tallies fun k' => count k' + if k' = k then 1 else 0 := by
  intro k'
  rw [get?_update, h.getD_get?, h k']
  by_cases hk : k' = k <;> simp [hk]

theorem tallies_foldl_update (l : List κ) :
    (l.foldl (fun m k => m.update k fun n => n.getD 0 + 1) (∅ : SortedMap κ Nat)).Tallies
      (l.count ·) := by
  suffices hfold : ∀ (m : SortedMap κ Nat) (count : κ → Nat), m.Tallies count →
      (l.foldl (fun m k => m.update k fun n => n.getD 0 + 1) m).Tallies
        fun k => count k + l.count k by
    exact (hfold ∅ _ tallies_empty).congr fun k => Nat.zero_add _
  induction l with
  | nil => exact fun m count h => h
  | cons a l ih =>
    intro m count h
    refine (ih _ _ (h.update a)).congr fun k => ?_
    rw [List.count_cons]
    by_cases hk : k = a
    · simp only [hk, if_true, beq_self_eq_true]
      omega
    · simp [hk, Ne.symm hk]

end

end SortedMap

end UsageRules
