import UsageRules.Proofs.Convention.RuleChoice

/-! When the rule of an item set is meaningful. Counted rules are chosen among the meaningful ones,
but a made-up rule takes the first parameter for its consequent wherever there is one, even if only
another item could be singled out (`selectRules_isMeaningful_iff`). -/

namespace UsageRules

namespace ItemSet

variable {items : ItemSet}

/-- Singling out the item gives a meaningful rule over the items. -/
def Admits (items : ItemSet) (consequent : String) : Prop :=
  ∃ r : Rule, r.allItems = items ∧ r.consequent = consequent ∧ r.isMeaningful = true

end ItemSet

namespace Rule

variable {r : Rule}

theorem isMeaningful_iff :
    r.isMeaningful = true ↔ ∀ item ∈ r.antecedent,
      Fact.hasRelation item .definedIn = false ∧ Fact.hasRelation item .declaredInBeans = false ∧
        ItemSet.supportsItem r.antecedent item = true := by
  simp [isMeaningful, SortedSet.mem_toList, and_assoc]

/-- Whether a rule is meaningful depends on its items and its consequent only. -/
theorem isMeaningful_iff_admits :
    r.isMeaningful = true ↔ r.allItems.Admits r.consequent := by
  constructor
  · intro h
    exact ⟨r, rfl, rfl, h⟩
  · rintro ⟨r', hitems, hconsequent, h⟩
    have hantecedent : r'.antecedent = r.antecedent := by
      rw [← r'.erase_allItems, hitems, hconsequent, r.erase_allItems]
    rwa [isMeaningful_congr hantecedent] at h

end Rule

namespace ItemSet

variable {items : ItemSet} {consequent : String}

theorem Admits.two_le_size (h : items.Admits consequent) : 2 ≤ items.size := by
  obtain ⟨r, rfl, -, -⟩ := h
  rw [r.size_allItems]
  exact r.two_le_size

theorem Admits.mem (h : items.Admits consequent) : consequent ∈ items := by
  obtain ⟨r, rfl, rfl, -⟩ := h
  exact r.consequent_mem_allItems

/-- What holds by construction can only be on the other side. -/
theorem Admits.eq_consequent (h : items.Admits consequent) {item : String} (hitem : item ∈ items)
    (hrelation : Fact.hasRelation item .definedIn = true ∨
      Fact.hasRelation item .declaredInBeans = true) : item = consequent := by
  obtain ⟨r, rfl, rfl, hmeaningful⟩ := h
  rcases SortedSet.mem_insert.mp hitem with heq | hmem
  · exact heq
  · obtain ⟨hdefined, hbeans, -⟩ := Rule.isMeaningful_iff.mp hmeaningful item hmem
    rcases hrelation with h | h
    · exact absurd (hdefined.symm.trans h) Bool.false_ne_true
    · exact absurd (hbeans.symm.trans h) Bool.false_ne_true

theorem supportsItem_of_not_hasParam (items : ItemSet) {item : String}
    (h : Fact.hasRelation item .hasParam = false) : supportsItem items item = true := by
  rw [supportsItem, Fact.parameterized?, h, Bool.and_false]
  rfl

/-! ## The chosen consequent -/

theorem firstOf_cons_of_find?_eq_some {test : String → Bool} {tests : List (String → Bool)}
    {item : String} (h : items.toList.find? test = some item) :
    items.firstOf (test :: tests) = some item := by rw [firstOf, h]

theorem firstOf_cons_of_find?_eq_none {test : String → Bool} {tests : List (String → Bool)}
    (h : items.toList.find? test = none) :
    items.firstOf (test :: tests) = items.firstOf tests := by rw [firstOf, h]

theorem chooseConsequent_of_hasParam {item : String}
    (h : items.toList.find? (Fact.hasRelation · .hasParam) = some item) :
    items.chooseConsequent = some item :=
  firstOf_cons_of_find?_eq_some h

/-- Without parameters, an item that holds by construction is singled out if there is one. -/
theorem Admits.chooseConsequent_of_no_param (h : items.Admits consequent)
    (hparam : items.toList.find? (Fact.hasRelation · .hasParam) = none) {item : String}
    (hitem : item ∈ items)
    (hrelation : Fact.hasRelation item .definedIn = true ∨
      Fact.hasRelation item .declaredInBeans = true) :
    items.chooseConsequent = some item := by
  obtain rfl := h.eq_consequent hitem hrelation
  refine (firstOf_cons_of_find?_eq_none hparam).trans ?_
  cases hdefined : items.toList.find? (Fact.hasRelation · .definedIn) with
  | some found =>
    have hfound := List.find?_some hdefined
    obtain rfl := h.eq_consequent (List.mem_of_find?_eq_some hdefined) (.inl hfound)
    exact firstOf_cons_of_find?_eq_some hdefined
  | none =>
    refine (firstOf_cons_of_find?_eq_none hdefined).trans ?_
    cases hbeans : items.toList.find? (Fact.hasRelation · .declaredInBeans) with
    | some found =>
      have hfound := List.find?_some hbeans
      obtain rfl := h.eq_consequent (List.mem_of_find?_eq_some hbeans) (.inr hfound)
      exact firstOf_cons_of_find?_eq_some hbeans
    | none =>
      rcases hrelation with hrelation | hrelation
      · exact absurd hrelation (List.find?_eq_none.mp hdefined item hitem)
      · exact absurd hrelation (List.find?_eq_none.mp hbeans item hitem)

end ItemSet

/-! ## The rules of item sets -/

section SelectRules

variable {rules : List Rule} {f : FrequentSet} {r : Rule} {consequent : String}

/-- A made-up rule without parameters is meaningful if any rule over its items is. -/
theorem isMeaningful_of_no_param (hadmits : f.items.Admits consequent)
    (hitems : r.allItems = f.items) (hchosen : f.items.chooseConsequent = some r.consequent)
    (hparam : f.items.toList.find? (Fact.hasRelation · .hasParam) = none) :
    r.isMeaningful = true := by
  apply Rule.isMeaningful_iff.mpr
  intro item hitem
  have hmem : item ∈ f.items := hitems ▸ SortedSet.mem_insert.mpr (.inr hitem)
  have hnot : ¬(Fact.hasRelation item .definedIn = true ∨
      Fact.hasRelation item .declaredInBeans = true) := by
    intro hrelation
    rw [hadmits.chooseConsequent_of_no_param hparam hmem hrelation] at hchosen
    cases hchosen
    exact r.consequent_fresh hitem
  rw [not_or, Bool.not_eq_true, Bool.not_eq_true] at hnot
  refine ⟨hnot.1, hnot.2, ItemSet.supportsItem_of_not_hasParam r.antecedent ?_⟩
  exact Bool.not_eq_true _ ▸ List.find?_eq_none.mp hparam item hmem

theorem isMeaningful_selectRule_iff (hselect : selectRule rules f = .ok r)
    (hadmits : f.items.Admits consequent) :
    r.isMeaningful = true ↔
      (∃ m ∈ rules, m.allItems = f.items ∧ m.isMeaningful = true) ∨
        ∀ param, f.items.toList.find? (Fact.hasRelation · .hasParam) = some param →
          f.items.Admits param := by
  obtain ⟨r', hselect', hitems, hcases⟩ := exists_selectRule rules hadmits.two_le_size
  rw [hselect] at hselect'
  cases hselect'
  rcases hcases with hbest | ⟨hnone, hchosen, -⟩
  · obtain ⟨hmem, -, hmeaningful⟩ := mem_rulesOver.mp (Rule.mem_of_mostConfident_eq_some hbest)
    exact iff_of_true hmeaningful (.inl ⟨r, hmem, hitems, hmeaningful⟩)
  constructor
  · intro hmeaningful
    right
    intro param hparam
    rw [ItemSet.chooseConsequent_of_hasParam hparam] at hchosen
    cases hchosen
    exact hitems ▸ Rule.isMeaningful_iff_admits.mp hmeaningful
  · rintro (⟨m, hm, hover, hmeaningful⟩ | hparam)
    · exact absurd (mem_rulesOver.mpr ⟨hm, hover, hmeaningful⟩) (hnone ▸ List.not_mem_nil)
    · cases hfind : f.items.toList.find? (Fact.hasRelation · .hasParam) with
      | some param =>
        have hadmitsParam := hparam param hfind
        rw [ItemSet.chooseConsequent_of_hasParam hfind] at hchosen
        cases hchosen
        exact Rule.isMeaningful_iff_admits.mpr (hitems ▸ hadmitsParam)
      | none => exact isMeaningful_of_no_param hadmits hitems hchosen hfind

/-- Sets of two items or more get one rule each, over exactly their items. If singling out some
item of a set gives a meaningful rule, the rule of the set is meaningful unless it is made up and
the first parameter among the items is singled out though this gives no meaningful rule. -/
theorem selectRules_isMeaningful_iff (rules : List Rule) (sets : List FrequentSet)
    (hsize : ∀ f ∈ sets, 2 ≤ f.size) :
    ∃ chosen, selectRules sets rules = .ok chosen ∧
      List.Forall₂ (fun f r => r.allItems = f.items ∧
        ((∃ consequent, f.items.Admits consequent) →
          (r.isMeaningful = true ↔
            (∃ m ∈ rules, m.allItems = f.items ∧ m.isMeaningful = true) ∨
              ∀ param, f.items.toList.find? (Fact.hasRelation · .hasParam) = some param →
                f.items.Admits param)) ∧
        (r.isMeaningful = true → ∀ item ∈ r.antecedent,
          Fact.hasRelation item .definedIn = false ∧
            Fact.hasRelation item .declaredInBeans = false)) sets chosen := by
  apply exists_mapM_eq_ok
  intro f hf
  obtain ⟨r, hselect, hitems, -⟩ := exists_selectRule rules (hsize f hf)
  refine ⟨r, hselect, hitems, ?_, fun hmeaningful item hitem => ?_⟩
  · rintro ⟨consequent, hadmits⟩
    exact isMeaningful_selectRule_iff hselect hadmits
  · obtain ⟨hdefined, hbeans, -⟩ := Rule.isMeaningful_iff.mp hmeaningful item hitem
    exact ⟨hdefined, hbeans⟩

/-- A class with a scope that a beans file declares. -/
def scopedBean : FrequentSet where
  items := .ofList [
    Fact.text "Class" "annotatedWith" "Annotation_ApplicationScoped",
    Fact.text "Class" "declaredInBeans" "beans.xml"]
  frequency := 20

theorem rule_of_scopedBean :
    (∀ f ∈ [scopedBean], 2 ≤ f.size) ∧
      ∃ r, selectRules [scopedBean] [] = .ok [r] ∧ r.isMeaningful = true := by
  have hsize : ∀ f ∈ [scopedBean], 2 ≤ f.size := by decide +kernel
  have hadmits : scopedBean.items.Admits (Fact.text "Class" "declaredInBeans" "beans.xml") := ⟨{
    antecedent := .singleton (Fact.text "Class" "annotatedWith" "Annotation_ApplicationScoped")
    consequent := Fact.text "Class" "declaredInBeans" "beans.xml"
    confidence := synthesizedConfidence
    antecedent_nonempty := rfl
    consequent_fresh := by decide +kernel }, by decide +kernel, rfl, by decide +kernel⟩
  have hparam : scopedBean.items.toList.find? (Fact.hasRelation · .hasParam) = none := by
    decide +kernel
  obtain ⟨chosen, hchosen, hall⟩ := selectRules_isMeaningful_iff [] [scopedBean] hsize
  cases hall with
  | cons hrule hnil =>
    cases hnil
    refine ⟨hsize, _, hchosen, (hrule.2.1 ⟨_, hadmits⟩).mpr (.inr fun param hfound => ?_)⟩
    rw [hparam] at hfound
    cases hfound

/-- A method with a fallback in a class that a beans file declares. -/
def fallbackInBean : FrequentSet where
  items := .ofList [
    Fact.text "Method" "annotatedWith" "Annotation_Fallback",
    Fact.text "Annotation_Fallback" "hasParam" "Param_fallbackMethod:String",
    Fact.text "Class" "declaredInBeans" "beans.xml"]
  frequency := 20

/-- The fact about the beans file could be singled out, but the parameter is. -/
theorem rule_of_fallbackInBean :
    fallbackInBean.items.Admits (Fact.text "Class" "declaredInBeans" "beans.xml") ∧
      (selectRules [fallbackInBean] []).toOption.map (·.map (·.isMeaningful)) =
        some [false] := by
  refine ⟨⟨{
    antecedent := .ofList [
      Fact.text "Method" "annotatedWith" "Annotation_Fallback",
      Fact.text "Annotation_Fallback" "hasParam" "Param_fallbackMethod:String"]
    consequent := Fact.text "Class" "declaredInBeans" "beans.xml"
    confidence := synthesizedConfidence
    antecedent_nonempty := by decide +kernel
    consequent_fresh := by decide +kernel }, by decide +kernel, rfl, by decide +kernel⟩, ?_⟩
  decide +kernel

end SelectRules

end UsageRules
