import UsageRules.Json.Reader

/-! What a JSON value is made of is what the typed reading of the value gives back. -/

namespace UsageRules

/-- The least integer of 64 bits is among the negative ones, which have a bound of their own. -/
theorem Numeral.int64?_ofInt (i : Int64) : (Numeral.ofInt i.toInt).int64? = some i := by
  have hleast := i.le_toInt
  have hgreatest := i.toInt_lt
  have hpow : pow2 63 = 2 ^ 63 := rfl
  rcases Int.lt_or_le i.toInt 0 with hneg | hnonneg
  · have habs : -(i.toInt.natAbs : Int) = i.toInt := by omega
    have hrange : 0 < i.toInt.natAbs ∧ i.toInt.natAbs ≤ pow2 63 := by omega
    simp only [ofInt, int64?, isInteger, List.isEmpty_nil, Option.isNone_none, Bool.and_self,
      if_true, hneg, decide_true, hrange, and_self, habs, Int64.ofInt_toInt]
  · have habs : (i.toInt.natAbs : Int) = i.toInt := by omega
    have hrange : i.toInt.natAbs < pow2 63 := by omega
    simp only [ofInt, int64?, isInteger, List.isEmpty_nil, Option.isNone_none, Bool.and_self,
      if_true, Int.not_lt.mpr hnonneg, decide_false, Bool.false_eq_true, if_false, hrange, habs,
      Int64.ofInt_toInt]

namespace Json

theorem asInt64_ofInt (i : Int64) : asInt64 (ofInt i.toInt) = some i := Numeral.int64?_ofInt i

/-! ## Arrays -/

theorem asList_map {α : Type} {read : Json → Option α} {f : α → Json}
    (h : ∀ a, read (f a) = some a) (l : List α) : asList read (.array (l.map f)) = some l := by
  induction l with
  | nil => rfl
  | cons a l ih =>
    simp only [asList] at ih
    simp [asList, h, ih]

theorem asStrings_ofStrings (l : List String) : asStrings (ofStrings l) = some l :=
  asList_map (f := ofString) (fun _ => rfl) l

theorem asStringSet_ofStrings (s : SortedSet String) :
    asStringSet (ofStrings s.toList) = some s := by
  simp [asStringSet, asStrings_ofStrings]

/-! ## Records -/

theorem membersNamed_ofFields {l : List (String × Json)} (h : (l.map Prod.fst).Nodup)
    (name : String) :
    membersNamed name (l.map fun e => (.text e.1, e.2)) = (l.lookup name).toList := by
  induction l with
  | nil => rfl
  | cons e l ih =>
    obtain ⟨key, v⟩ := e
    obtain ⟨hkey, hl⟩ := List.nodup_cons.mp h
    have hrest := ih hl
    simp only [membersNamed] at hrest
    by_cases hname : key = name
    · subst hname
      have hnone : l.lookup key = none :=
        List.lookup_eq_none_iff.mpr fun e he =>
          bne_iff_ne.mpr fun heq => hkey (List.mem_map.mpr ⟨e, he, heq.symm⟩)
      simpa [membersNamed, hnone] using hrest
    · have hother : (name == key) = false := by simpa using Ne.symm hname
      simpa [membersNamed, hname, List.lookup_cons, hother] using hrest

/-- Fields with different names are found under their names, whatever other names are asked for. -/
theorem asRecord_ofFields {l : List (String × Json)} (h : (l.map Prod.fst).Nodup)
    (names : List String) : asRecord names (ofFields l) = some (names.map (l.lookup ·)) := by
  have htexts : (l.map fun e => (Literal.text e.1, e.2)).any (·.1 = .unpaired) = false := by simp
  simp only [asRecord, ofFields, htexts, Bool.false_eq_true, if_false, membersNamed_ofFields h]
  induction names with
  | nil => rfl
  | cons name names ih =>
    rw [List.mapM_cons, ih]
    cases hname : l.lookup name <;> simp [hname]

end Json

end UsageRules
