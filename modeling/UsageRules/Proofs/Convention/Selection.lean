import UsageRules.Proofs.Convention.RuleChoice
import UsageRules.Proofs.Rule.Operations

/-! Which sets get a rule, and which rule they get. Selection fails for a set of fewer than two
items and for no other, and always with the same error (`selectRule_eq_error`); a rule that is
selected is the first of the best over its items, or made up where there is none
(`selectRules_outcome`). -/

namespace UsageRules

variable {rules : List Rule} {f : FrequentSet} {r : Rule}

/-! ## Sets that are too small -/

theorem rulesOver_eq_nil (rules : List Rule) (h : f.size < 2) : rulesOver rules f = [] := by
  refine List.eq_nil_iff_forall_not_mem.mpr fun r hr => ?_
  obtain ⟨-, hitems, -⟩ := mem_rulesOver.mp hr
  rw [← size_antecedent_of_allItems_eq hitems] at h
  exact absurd r.two_le_size (Nat.not_le_of_lt h)

theorem selectRule_eq_error (rules : List Rule) (h : f.size < 2) :
    selectRule rules f = .error .emptyAntecedent := by
  rw [selectRule_eq, rulesOver_eq_nil rules h]
  exact ItemSet.synthesize_eq_error h

theorem exists_selectRule_iff : (∃ r, selectRule rules f = .ok r) ↔ 2 ≤ f.size := by
  constructor
  · rintro ⟨r, hr⟩
    by_contra hsmall
    rw [selectRule_eq_error rules (Nat.lt_of_not_le hsmall)] at hr
    cases hr
  · intro hlarge
    obtain ⟨r, hr, -⟩ := exists_selectRule rules hlarge
    exact ⟨r, hr⟩

theorem eq_emptyAntecedent_of_selectRule {error : RuleError}
    (h : selectRule rules f = .error error) : error = .emptyAntecedent := by
  rcases Nat.lt_or_ge f.size 2 with hsmall | hlarge
  · rw [selectRule_eq_error rules hsmall] at h
    cases h
    rfl
  · obtain ⟨r, hr, -⟩ := exists_selectRule rules hlarge
    rw [hr] at h
    cases h

/-! ## The selected rules -/

/-- The rule that a set gets. -/
structure ChosenFor (rules : List Rule) (f : FrequentSet) (r : Rule) : Prop where
  allItems_eq : r.allItems = f.items
  /-- Of the meaningful rules over exactly the items it is the first that none exceeds. -/
  firstBest : (∃ m ∈ rules, m.allItems = f.items ∧ m.isMeaningful = true) →
    Rule.IsFirstBest (rules.filter fun m => m.allItems = f.items && m.isMeaningful) r
  /-- Without such rules it is made up, with the chosen consequent. -/
  madeUp : (¬∃ m ∈ rules, m.allItems = f.items ∧ m.isMeaningful = true) →
    f.items.synthesize = .ok r ∧ f.items.chooseConsequent = some r.consequent ∧
      r.confidence = synthesizedConfidence ∧ r.version = "" ∧ r.label = .unknown

theorem rulesOver_eq_nil_iff :
    rulesOver rules f = [] ↔ ¬∃ m ∈ rules, m.allItems = f.items ∧ m.isMeaningful = true := by
  simp only [List.eq_nil_iff_forall_not_mem, mem_rulesOver, not_exists, not_and]

theorem chosenFor_of_selectRule (hrules : ∀ m ∈ rules, Double.IsNumber m.confidence)
    (h : selectRule rules f = .ok r) : ChosenFor rules f r := by
  have hlarge : 2 ≤ f.size := exists_selectRule_iff.mp ⟨r, h⟩
  obtain ⟨r', hr', hitems, hcases⟩ := exists_selectRule rules hlarge
  obtain rfl : r = r' := Except.ok.inj (h.symm.trans hr')
  rcases hcases with hbest | ⟨hnone, hmadeUp⟩
  · have hover := Rule.mem_of_mostConfident_eq_some hbest
    obtain ⟨hmem, -, hmeaningful⟩ := mem_rulesOver.mp hover
    refine ⟨hitems, fun _ => ?_, fun hnot => absurd ⟨r, hmem, hitems, hmeaningful⟩ hnot⟩
    rw [rulesOver_eq_filter] at hbest
    exact Rule.isFirstBest_of_mostConfident
      (fun m hm => hrules m (List.mem_filter.mp hm).1) hbest
  · have hsynthesize := (selectRule_eq rules f).symm.trans h
    rw [hnone] at hsynthesize
    exact ⟨hitems, fun hsome => absurd hsome (rulesOver_eq_nil_iff.mp hnone),
      fun _ => ⟨hsynthesize, hmadeUp⟩⟩

/-- Selection succeeds for sets of two items or more only, and fails only for want of an antecedent.
It gives each set, in their order, the first best of the meaningful rules over exactly its items, or
one that is made up if there is none. -/
theorem selectRules_outcome (sets : List FrequentSet) (hrules : ∀ r ∈ rules, r.Reachable) :
    ((∃ chosen, selectRules sets rules = .ok chosen) ↔ ∀ f ∈ sets, 2 ≤ f.size) ∧
      (∀ error, selectRules sets rules = .error error → error = .emptyAntecedent) ∧
      ∀ chosen, selectRules sets rules = .ok chosen →
        List.Forall₂ (ChosenFor rules) sets chosen := by
  refine ⟨⟨?_, fun hlarge => ?_⟩, fun error herror => ?_, fun chosen hchosen => ?_⟩
  · rintro ⟨chosen, hchosen⟩ f hf
    obtain ⟨r, -, hr⟩ := exists_mem_right (mapM_eq_ok_iff.mp hchosen) hf
    exact exists_selectRule_iff.mp ⟨r, hr⟩
  · obtain ⟨chosen, hchosen, -⟩ := exists_mapM_eq_ok fun f (hf : f ∈ sets) =>
      exists_selectRule rules (hlarge f hf)
    exact ⟨chosen, hchosen⟩
  · obtain ⟨f, -, hfail⟩ := exists_of_mapM_eq_error herror
    exact eq_emptyAntecedent_of_selectRule hfail
  · exact (mapM_eq_ok_iff.mp hchosen).imp fun f r hr =>
      chosenFor_of_selectRule (fun m hm => (hrules m hm).isNumber) hr

/-- A set with two rules over its items, one of which comes from the other by operations. -/
def scopedCheckSet : FrequentSet := { items := Rule.scopedCheck.allItems, frequency := 3 }

def scopedCheckRules : List Rule :=
  [Rule.scopedCheck.performAll Rule.scopedCheckOperations, Rule.scopedCheck]

/-- Of two equally confident rules the first is selected. -/
theorem selectRules_of_scopedCheckRules :
    (∀ r ∈ scopedCheckRules, r.Reachable) ∧
      selectRules [scopedCheckSet] scopedCheckRules =
        .ok [Rule.scopedCheck.performAll Rule.scopedCheckOperations] := by
  have hrules : ∀ r ∈ scopedCheckRules, r.Reachable := by
    intro r hr
    rcases List.mem_pair.mp hr with rfl | rfl
    · exact ⟨_, _, _, _, _, Rule.make_scopedCheck, rfl⟩
    · exact ⟨_, _, _, _, [], Rule.make_scopedCheck, rfl⟩
  have hsize : ∀ f ∈ [scopedCheckSet], 2 ≤ f.size := by decide +kernel
  have hall : ∀ m ∈ scopedCheckRules,
      (m.allItems = scopedCheckSet.items && m.isMeaningful) = true := by decide +kernel
  obtain ⟨hok, -, houtcome⟩ := selectRules_outcome [scopedCheckSet] hrules
  obtain ⟨chosen, hchosen⟩ := hok.mpr hsize
  refine ⟨hrules, ?_⟩
  cases houtcome chosen hchosen with
  | @cons f r sets chosen hr hnil =>
    cases hnil
    obtain ⟨l₁, l₂, hsplit, hbefore, -⟩ :=
      hr.firstBest ⟨Rule.scopedCheck, by simp [scopedCheckRules], rfl, by decide +kernel⟩
    rw [List.filter_eq_self.mpr hall] at hsplit
    cases l₁ with
    | nil =>
      obtain ⟨rfl, -⟩ := List.cons.inj hsplit
      exact hchosen
    | cons first l₁ =>
      -- The second rule does not exceed the first.
      obtain ⟨rfl, hrest⟩ := List.cons.inj hsplit
      have hsecond : r = Rule.scopedCheck :=
        List.mem_singleton.mp (hrest ▸ List.mem_append_right l₁ List.mem_cons_self)
      have hlt := hbefore _ List.mem_cons_self
      rw [hsecond] at hlt
      exact absurd hlt (by decide +kernel)

end UsageRules
