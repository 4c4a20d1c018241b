import UsageRules.Proofs.SetSize
import UsageRules.Rule.Basic

/-! Rules as their items with one singled out. The consequent is the only item that is missing from
the antecedent (`Rule.erase_allItems`), and what singles it out decides whether a rule can be made
(`Rule.make_eq_ok_iff`) and what moving another item does (`Rule.moveInPlace_cases`). -/

namespace UsageRules

namespace Rule

variable {r r' : Rule}

/-! ## The items of a rule -/

theorem consequent_mem_allItems (r : Rule) : r.consequent ∈ r.allItems :=
  SortedSet.mem_insert.mpr (.inl rfl)

theorem erase_allItems (r : Rule) : r.allItems.erase r.consequent = r.antecedent := by
  ext item
  rw [SortedSet.mem_erase, allItems, SortedSet.mem_insert]
  constructor
  · rintro ⟨heq | hmem, hne⟩
    · exact absurd heq hne
    · exact hmem
  · intro hmem
    exact ⟨.inr hmem, fun heq => r.consequent_fresh (heq ▸ hmem)⟩

theorem size_allItems (r : Rule) : r.allItems.size = r.size := by
  rw [size, ← r.erase_allItems, SortedSet.size_erase r.consequent_mem_allItems]

theorem two_le_size (r : Rule) : 2 ≤ r.size := by
  have hpos := SortedSet.isEmpty_eq_false_iff.mp r.antecedent_nonempty
  rw [size]
  omega

theorem allItems_of_antecedent_eq {items : ItemSet} (hmem : r.consequent ∈ items)
    (h : r.antecedent = items.erase r.consequent) : r.allItems = items := by
  ext item
  rw [allItems, SortedSet.mem_insert, h, SortedSet.mem_erase]
  constructor
  · rintro (rfl | ⟨hitem, -⟩)
    · exact hmem
    · exact hitem
  · intro hitem
    by_cases heq : item = r.consequent
    · exact .inl heq
    · exact .inr ⟨hitem, heq⟩

/-! ## Making and changing rules -/

section Make

variable {antecedent : ItemSet} {consequent : String} {confidence : Float}

/-- A rule is made from its sides and its confidence, without a version and a label. -/
theorem make_eq_ok_iff :
    make antecedent consequent confidence = .ok r ↔
      r.antecedent = antecedent ∧ r.consequent = consequent ∧ r.confidence = confidence ∧
        r.version = "" ∧ r.label = .unknown ∧ isConfidence confidence = true := by
  constructor
  · intro h
    rw [make] at h
    split at h
    · split at h
      · cases h
      · split at h
        · rename_i hconfidence
          cases h
          exact ⟨rfl, rfl, rfl, rfl, rfl, hconfidence⟩
        · cases h
    · cases h
  · rintro ⟨rfl, rfl, rfl, hversion, hlabel, hconfidence⟩
    rw [make, dif_pos r.antecedent_nonempty, dif_neg r.consequent_fresh, if_pos hconfidence]
    cases r
    cases hversion
    cases hlabel
    rfl

theorem exists_make
    (h : antecedent.isEmpty = false) (h' : ¬consequent ∈ antecedent)
    (hconfidence : isConfidence confidence = true) :
    ∃ r, make antecedent consequent confidence = .ok r ∧ r.antecedent = antecedent ∧
      r.consequent = consequent ∧ r.confidence = confidence ∧ r.version = "" ∧
      r.label = .unknown := by
  rw [make, dif_pos h, dif_neg h', if_pos hconfidence]
  exact ⟨_, rfl, rfl, rfl, rfl, rfl, rfl⟩

end Make

/-- All that a move can do: it fails and leaves the rule alone, or it singles out the item. -/
theorem moveInPlace_cases (r : Rule) (item : String) :
    item = r.consequent ∧ r.moveInPlace item = (r, some (.alreadyConsequent item)) ∨
    ¬item ∈ r.allItems ∧ r.moveInPlace item = (r, some (.notInAntecedent item)) ∨
    ¬item = r.consequent ∧ item ∈ r.antecedent ∧
      ∃ r' : Rule, r.moveInPlace item = (r', none) ∧ r'.antecedent = r.allItems.erase item ∧
        r'.consequent = item ∧ r'.confidence = r.confidence ∧ r'.version = r.version ∧
        r'.label = r.label := by
  by_cases heq : r.consequent = item
  · refine .inl ⟨heq.symm, ?_⟩
    rw [moveInPlace, dif_pos heq]
  by_cases hmem : item ∈ r.antecedent
  · refine .inr (.inr ⟨Ne.symm heq, hmem, ?_⟩)
    rw [moveInPlace, dif_neg heq, dif_pos hmem]
    refine ⟨_, rfl, ?_, rfl, rfl, rfl, rfl⟩
    ext a
    simp only [SortedSet.mem_insert, SortedSet.mem_erase, allItems]
    constructor
    · rintro (rfl | ⟨ha, hne⟩)
      · exact ⟨.inl rfl, heq⟩
      · exact ⟨.inr ha, hne⟩
    · rintro ⟨rfl | ha, hne⟩
      · exact .inl rfl
      · exact .inr ⟨ha, hne⟩
  · refine .inr (.inl ⟨?_, ?_⟩)
    · rw [allItems, SortedSet.mem_insert, not_or]
      exact ⟨Ne.symm heq, hmem⟩
    · -- Nothing was taken out of the antecedent.
      have herase := SortedSet.erase_of_not_mem hmem
      rw [moveInPlace, dif_neg heq, dif_neg hmem]
      cases r
      simp only [herase]

theorem exists_moveToConsequent {item : String} (hne : ¬item = r.consequent)
    (hmem : item ∈ r.antecedent) :
    ∃ r', r.moveToConsequent item = .ok r' ∧ r'.antecedent = r.allItems.erase item ∧
      r'.consequent = item ∧ r'.confidence = r.confidence ∧ r'.version = r.version ∧
      r'.label = r.label := by
  rw [moveToConsequent]
  rcases r.moveInPlace_cases item with ⟨heq, -⟩ | ⟨hnot, -⟩ | ⟨-, -, r', hmove, hrest⟩
  · exact absurd heq hne
  · exact absurd (SortedSet.mem_insert.mpr (.inr hmem)) hnot
  · rw [hmove]
    exact ⟨r', rfl, hrest⟩

end Rule

end UsageRules
