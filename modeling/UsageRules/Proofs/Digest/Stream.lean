import UsageRules.Record

/-! The byte stream of a rule and what can be read back from it. If no item has one of the
characters that mark an end, the stream splits into its two sides and each side into its items
(`Digest.splitOn_stream`, `Digest.splitOn_sideBytes`), so only rules with the same sides have the
same stream (`Digest.stream_eq_iff`). Whatever the items are, the id of a rule depends on its sides
alone (`Digest.sides_of_stream_and_id`). -/

namespace UsageRules

namespace Digest

/-! ## The bytes of an item -/

def itemBytes (item : String) : List UInt8 := item.toUTF8.data.toList

theorem itemBytes_eq (item : String) :
    itemBytes item = item.toList.flatMap String.utf8EncodeChar := by
  rw [itemBytes, String.toUTF8_eq_toByteArray, ← String.utf8Encode_toList, List.utf8Encode,
    List.toList_data_toByteArray]

theorem itemBytes_inj {item item' : String} : itemBytes item = itemBytes item' ↔ item = item' := by
  refine ⟨fun h => ?_, fun h => h ▸ rfl⟩
  exact String.toByteArray_inj.mp (ByteArray.ext (Array.toList_inj.mp h))

/-- A byte below 128 stands for the character with its number: all bytes of the other characters are
larger. -/
theorem toNat_eq_of_mem_utf8EncodeChar {b : UInt8} {c : Char} (hb : b.toNat < 128)
    (h : b ∈ String.utf8EncodeChar c) : c.toNat = b.toNat := by
  have hlarge : ∀ n, 128 ≤ n → n < 256 → b ≠ UInt8.ofNat n := by
    rintro n hlow hhigh rfl
    rw [UInt8.toNat_ofNat'] at hb
    omega
  revert h
  fun_cases String.utf8EncodeChar c with
  | case1 v hv =>
    intro h
    have hmod : c.val.toNat % 256 = c.val.toNat := Nat.mod_eq_of_lt (by omega)
    rw [List.mem_singleton.mp h, UInt8.toNat_ofNat']
    exact hmod.symm
  | case2 =>
    intro h
    simp only [List.mem_cons, List.not_mem_nil, or_false] at h
    rcases h with h | h <;> exact absurd h (hlarge _ (by omega) (by omega))
  | case3 =>
    intro h
    simp only [List.mem_cons, List.not_mem_nil, or_false] at h
    rcases h with h | h | h <;> exact absurd h (hlarge _ (by omega) (by omega))
  | case4 =>
    intro h
    simp only [List.mem_cons, List.not_mem_nil, or_false] at h
    rcases h with h | h | h | h <;> exact absurd h (hlarge _ (by omega) (by omega))

theorem mem_toList_of_mem_itemBytes {c : Char} (hc : c.toNat < 128) {item : String}
    (h : UInt8.ofNat c.toNat ∈ itemBytes item) : c ∈ item.toList := by
  rw [itemBytes_eq] at h
  obtain ⟨c', hc', hmem⟩ := List.mem_flatMap.mp h
  have hbyte : (UInt8.ofNat c.toNat).toNat = c.toNat := by
    rw [UInt8.toNat_ofNat', Nat.mod_eq_of_lt (by omega)]
  have heq := toNat_eq_of_mem_utf8EncodeChar (by omega) hmem
  rw [hbyte, Char.toNat_inj] at heq
  exact heq ▸ hc'

/-! ## Plain items -/

/-- The item has none of the characters of which the bytes mark the end of a side or of an item. -/
def IsPlain (item : String) : Prop := '\x1e' ∉ item.toList ∧ '\x1f' ∉ item.toList

instance (item : String) : Decidable (IsPlain item) := inferInstanceAs (Decidable (_ ∧ _))

section
variable {item : String}

theorem IsPlain.sideEnd_not_mem (h : IsPlain item) : sideEnd ∉ itemBytes item :=
  fun hmem => h.1 (mem_toList_of_mem_itemBytes (by decide) hmem)

theorem IsPlain.itemEnd_not_mem (h : IsPlain item) : itemEnd ∉ itemBytes item :=
  fun hmem => h.2 (mem_toList_of_mem_itemBytes (by decide) hmem)

end

/-! ## Reading a stream back -/

section
variable {items items' antecedent consequent antecedent' consequent' : ItemSet}

/-- A side splits into its items, and nothing stands behind the end of the last one. -/
theorem splitOn_sideBytes (h : ∀ item ∈ items, IsPlain item) :
    (sideBytes items).splitOn itemEnd = items.toList.map itemBytes ++ [[]] := by
  suffices hsplit : ∀ l : List String, (∀ item ∈ l, IsPlain item) →
      (l.flatMap fun item => itemBytes item ++ [itemEnd]).splitOn itemEnd =
        l.map itemBytes ++ [[]] from hsplit items.toList h
  intro l hl
  induction l with
  | nil => rfl
  | cons item l ih =>
    have hitem := hl item List.mem_cons_self
    rw [List.flatMap_cons, List.append_assoc, List.singleton_append,
      List.splitOn_append_cons_self_of_not_mem hitem.itemEnd_not_mem,
      ih fun item' hitem' => hl item' (List.mem_cons_of_mem item hitem')]
    rfl

theorem sideBytes_inj (h : ∀ item ∈ items, IsPlain item) (h' : ∀ item ∈ items', IsPlain item) :
    sideBytes items = sideBytes items' ↔ items = items' := by
  refine ⟨fun heq => ?_, fun heq => heq ▸ rfl⟩
  have hsplit := splitOn_sideBytes h
  rw [heq, splitOn_sideBytes h'] at hsplit
  have hbytes := List.append_cancel_right hsplit
  exact SortedSet.eq_of_toList_eq
    ((List.map_inj_right fun _ _ => itemBytes_inj.mp).mp hbytes).symm

theorem sideEnd_not_mem_sideBytes (h : ∀ item ∈ items, IsPlain item) :
    sideEnd ∉ sideBytes items := by
  intro hmem
  obtain ⟨item, hitem, hbyte⟩ := List.mem_flatMap.mp hmem
  rcases List.mem_append.mp hbyte with hbyte | hbyte
  · exact (h item hitem).sideEnd_not_mem hbyte
  · exact absurd (List.mem_singleton.mp hbyte) (by decide)

theorem splitOn_stream (hantecedent : ∀ item ∈ antecedent, IsPlain item)
    (hconsequent : ∀ item ∈ consequent, IsPlain item) :
    (stream antecedent consequent).splitOn sideEnd =
      [sideBytes antecedent, sideBytes consequent] := by
  rw [stream, List.splitOn_append_cons_self_of_not_mem (sideEnd_not_mem_sideBytes hantecedent),
    List.splitOn_eq_singleton (sideEnd_not_mem_sideBytes hconsequent)]

theorem stream_eq_iff (h : ∀ item ∈ antecedent ∪ consequent, IsPlain item)
    (h' : ∀ item ∈ antecedent' ∪ consequent', IsPlain item) :
    stream antecedent consequent = stream antecedent' consequent' ↔
      antecedent = antecedent' ∧ consequent = consequent' := by
  simp only [SortedSet.mem_union, or_imp, forall_and] at h h'
  constructor
  · intro heq
    have hsplit := splitOn_stream h.1 h.2
    rw [heq, splitOn_stream h'.1 h'.2] at hsplit
    obtain ⟨hantecedent, hrest⟩ := List.cons.inj hsplit
    obtain ⟨hconsequent, -⟩ := List.cons.inj hrest
    exact ⟨(sideBytes_inj h.1 h'.1).mp hantecedent.symm,
      (sideBytes_inj h.2 h'.2).mp hconsequent.symm⟩
  · rintro ⟨rfl, rfl⟩
    rfl

/-! ## Ids -/

/-- Different streams with one hash. -/
def Collide (s t : List UInt8) : Prop := s ≠ t ∧ absorb offset s = absorb offset t

theorem contentId_eq_iff_absorb_eq :
    contentId antecedent consequent = contentId antecedent' consequent' ↔
      absorb offset (stream antecedent consequent) =
        absorb offset (stream antecedent' consequent') :=
  ⟨Int64.ofUInt64.inj, congrArg UInt64.toInt64⟩

theorem contentId_eq_iff :
    contentId antecedent consequent = contentId antecedent' consequent' ↔
      stream antecedent consequent = stream antecedent' consequent' ∨
        Collide (stream antecedent consequent) (stream antecedent' consequent') := by
  rw [contentId_eq_iff_absorb_eq, Collide]
  by_cases heq : stream antecedent consequent = stream antecedent' consequent' <;> simp [heq]

end

/-- Plain rules have the same stream only if they have the same sides, so the ids of different ones
are the same only if two streams collide. The items of any rule may be given in any order and with
repeats: its id is that of its two sides, and a record has it too, whether it is made of the rule or
of the sides. -/
theorem sides_of_stream_and_id :
    (∀ antecedent consequent antecedent' consequent' : ItemSet,
      (∀ item ∈ antecedent ∪ consequent, IsPlain item) →
      (∀ item ∈ antecedent' ∪ consequent', IsPlain item) →
      (stream antecedent consequent = stream antecedent' consequent' ↔
        antecedent = antecedent' ∧ consequent = consequent') ∧
      (contentId antecedent consequent = contentId antecedent' consequent' ↔
        (antecedent = antecedent' ∧ consequent = consequent') ∨
          Collide (stream antecedent consequent) (stream antecedent' consequent'))) ∧
    (∀ xs ys xs' ys' : List String,
      (∀ item, item ∈ xs ↔ item ∈ xs') → (∀ item, item ∈ ys ↔ item ∈ ys') →
      contentId (.ofList xs) (.ofList ys) = contentId (.ofList xs') (.ofList ys')) ∧
    ∀ (r : Rule) (xs ys : List String) (label : Label),
      (∀ item, item ∈ xs ↔ item ∈ r.antecedent) → (∀ item, item ∈ ys ↔ item = r.consequent) →
      (Record.make (.ofList xs) (.ofList ys) label).id = r.id ∧ (Record.ofRule r).id = r.id := by
  refine ⟨fun antecedent consequent antecedent' consequent' h h' => ?_,
    fun xs ys xs' ys' hxs hys => ?_, fun r xs ys label hxs hys => ?_⟩
  · have hstream := stream_eq_iff h h'
    exact ⟨hstream, by rw [contentId_eq_iff, hstream]⟩
  · have hantecedent : SortedSet.ofList xs = .ofList xs' :=
      SortedSet.ofList_eq_iff.mpr fun item => (hxs item).trans SortedSet.mem_ofList.symm
    have hconsequent : SortedSet.ofList ys = .ofList ys' :=
      SortedSet.ofList_eq_iff.mpr fun item => (hys item).trans SortedSet.mem_ofList.symm
    rw [hantecedent, hconsequent]
  · have hantecedent : SortedSet.ofList xs = r.antecedent := SortedSet.ofList_eq_iff.mpr hxs
    have hconsequent : SortedSet.ofList ys = .singleton r.consequent :=
      SortedSet.ofList_eq_iff.mpr fun item => (hys item).trans SortedSet.mem_singleton.symm
    rw [Record.make, hantecedent, hconsequent]
    exact ⟨rfl, rfl⟩

/-- A rule of which the items spell the same text if they are cut at another place. -/
def cutRule : Rule where
  antecedent := .ofList ["ab", "c"]
  consequent := "z"
  confidence := 1.0
  antecedent_nonempty := by decide
  consequent_fresh := by decide

/-- Items that are cut elsewhere give another stream, and items that are repeated the same id. -/
theorem stream_of_cutItems :
    let cut : ItemSet := .ofList ["", "a", "bc"]
    (∀ item ∈ cutRule.antecedent ∪ .singleton "z", IsPlain item) ∧
      (∀ item ∈ cut ∪ .singleton "z", IsPlain item) ∧
      stream cutRule.antecedent (.singleton "z") ≠ stream cut (.singleton "z") ∧
      (Record.make (.ofList ["c", "ab", "c"]) (.ofList ["z", "z"]) .correct).id = cutRule.id := by
  obtain ⟨hplain, -, hrecord⟩ := sides_of_stream_and_id
  have h : ∀ item ∈ cutRule.antecedent ∪ .singleton "z", IsPlain item := by decide
  have h' : ∀ item ∈ SortedSet.ofList ["", "a", "bc"] ∪ .singleton "z", IsPlain item := by decide
  refine ⟨h, h', fun heq => ?_, ?_⟩
  · have hsides := ((hplain _ _ _ _ h h').1.mp heq).1
    exact absurd hsides (by decide)
  · refine (hrecord cutRule _ _ .correct (fun item => ?_) fun item => ?_).1
    · rw [cutRule, SortedSet.mem_ofList]
      grind
    · simp [cutRule]

end Digest

end UsageRules
