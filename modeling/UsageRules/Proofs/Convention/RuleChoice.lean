import UsageRules.Convention.Selection
import UsageRules.Proofs.Decimal.Comparison
import UsageRules.Proofs.Rule.Basic
import UsageRules.Proofs.Traversal

/-! One rule for each item set. A set of two items or more always gets a rule over exactly its
items (`exists_selectRule`): the first of the most confident meaningful ones
(`Rule.isFirstBest_of_mostConfident`), or one made up with the chosen consequent
(`ItemSet.exists_synthesize`). -/

namespace UsageRules

namespace Rule

variable {r r' : Rule}

theorem isMeaningful_congr (h : r.antecedent = r'.antecedent) :
    r.isMeaningful = r'.isMeaningful := by rw [isMeaningful, isMeaningful, h]

/-! ## The most confident rule -/

/-- The rule is the first of the list that none exceeds in confidence. -/
def IsFirstBest (rules : List Rule) (r : Rule) : Prop :=
  ∃ l₁ l₂, rules = l₁ ++ r :: l₂ ∧ (∀ x ∈ l₁, x.confidence < r.confidence) ∧
    ∀ x ∈ l₂, ¬r.confidence < x.confidence

theorem IsFirstBest.singleton (r : Rule) : IsFirstBest [r] r :=
  ⟨[], [], rfl, by simp, by simp⟩

theorem IsFirstBest.cons_of_lt {best x : Rule} {rules : List Rule}
    (h : IsFirstBest (x :: rules) r) (hlt : best.confidence < x.confidence) :
    IsFirstBest (best :: x :: rules) r := by
  obtain ⟨l₁, l₂, hsplit, hbefore, hafter⟩ := h
  have hbest : best.confidence < r.confidence := by
    cases l₁ with
    | nil =>
      cases hsplit
      exact hlt
    | cons y l₁ =>
      cases hsplit
      exact Double.lt_trans hlt (hbefore x List.mem_cons_self)
  refine ⟨best :: l₁, l₂, by rw [hsplit]; rfl, ?_, hafter⟩
  intro y hy
  rcases List.mem_cons.mp hy with rfl | hy
  · exact hbest
  · exact hbefore y hy

theorem IsFirstBest.skip {best x : Rule} {rules : List Rule}
    (h : IsFirstBest (best :: rules) r) (hbest : Double.IsNumber best.confidence)
    (hx : Double.IsNumber x.confidence) (hnot : ¬best.confidence < x.confidence) :
    IsFirstBest (best :: x :: rules) r := by
  obtain ⟨l₁, l₂, hsplit, hbefore, hafter⟩ := h
  cases l₁ with
  | nil =>
    cases hsplit
    refine ⟨[], x :: rules, rfl, by simp, ?_⟩
    intro y hy
    rcases List.mem_cons.mp hy with rfl | hy
    · exact hnot
    · exact hafter y hy
  | cons y l₁ =>
    cases hsplit
    have hlt := hbefore best List.mem_cons_self
    refine ⟨best :: x :: l₁, l₂, rfl, ?_, hafter⟩
    intro y hy
    rcases List.mem_cons.mp hy with rfl | hy
    · exact hlt
    rcases List.mem_cons.mp hy with rfl | hy
    · exact Double.lt_of_le_of_lt (Double.le_of_not_lt hbest hx hnot) hlt
    · exact hbefore y (List.mem_cons_of_mem best hy)

theorem isFirstBest_foldl (best : Rule) (rules : List Rule)
    (hbest : Double.IsNumber best.confidence)
    (hrules : ∀ r ∈ rules, Double.IsNumber r.confidence) :
    IsFirstBest (best :: rules)
      (rules.foldl (fun best r => if best.confidence < r.confidence then r else best) best) := by
  induction rules generalizing best with
  | nil => exact .singleton best
  | cons x rules ih =>
    have hx := hrules x List.mem_cons_self
    have hrest := fun r hr => hrules r (List.mem_cons_of_mem x hr)
    rw [List.foldl_cons]
    split
    · rename_i hlt
      exact (ih x hx hrest).cons_of_lt hlt
    · rename_i hnot
      exact (ih best hbest hrest).skip hbest hx hnot

theorem isFirstBest_of_mostConfident {rules : List Rule}
    (hrules : ∀ r ∈ rules, Double.IsNumber r.confidence) (h : mostConfident rules = some r) :
    IsFirstBest rules r := by
  cases rules with
  | nil => cases h
  | cons best rules =>
    cases h
    exact isFirstBest_foldl best rules (hrules best List.mem_cons_self)
      fun r hr => hrules r (List.mem_cons_of_mem best hr)

section Labels

variable {α : Type} {before : α → α → Prop} {q : Rule → Bool}

/-- If rules carry labels in some order, the chosen one exceeds those that carry an earlier label,
and none exceeds it. -/
theorem mostConfident_map_snd {z : List (α × Rule)}
    (hz : z.Pairwise fun p p' => before p.1 p'.1)
    (hnumber : ∀ p ∈ z, Double.IsNumber p.2.confidence)
    (h : mostConfident ((z.map Prod.snd).filter q) = some r) :
    ∃ x, (x, r) ∈ z ∧ ∀ y r', (y, r') ∈ z → q r' = true → r'.confidence < r.confidence ∨
      (r'.confidence == r.confidence) = true ∧ (x = y ∨ before x y) := by
  rw [List.filter_map] at h
  have hfirst := isFirstBest_of_mostConfident (fun r hr => by
    obtain ⟨p, hp, rfl⟩ := List.mem_map.mp hr
    exact hnumber p (List.mem_filter.mp hp).1) h
  obtain ⟨l₁, l₂, hsplit, hbefore, hafter⟩ := hfirst
  obtain ⟨z₁, z', heq, rfl, hcons⟩ := List.map_eq_append_iff.mp hsplit
  obtain ⟨⟨x, r⟩, z₂, rfl, rfl, rfl⟩ := List.map_eq_cons_iff.mp hcons
  have hmem : ∀ {p}, p ∈ z₁ ++ (x, r) :: z₂ ↔ p ∈ z ∧ q p.2 = true := by
    intro p
    rw [← heq, List.mem_filter]
    rfl
  have hx := (hmem.mp (List.mem_append_right z₁ List.mem_cons_self)).1
  have hnumber' : Double.IsNumber r.confidence := hnumber (x, r) hx
  refine ⟨x, hx, ?_⟩
  intro y r' hy hq
  rcases List.mem_append.mp (hmem.mpr ⟨hy, hq⟩) with hy₁ | hy₂
  · exact .inl (hbefore r' (List.mem_map_of_mem hy₁))
  rcases List.mem_cons.mp hy₂ with heq' | hy₂
  · cases heq'
    exact .inr ⟨Double.beq_iff_place.mpr ⟨hnumber', hnumber', rfl⟩, .inl rfl⟩
  · have hpairwise : (z₁ ++ (x, r) :: z₂).Pairwise fun p p' => before p.1 p'.1 :=
      heq ▸ hz.filter _
    have horder : before x y := (List.pairwise_cons.mp
      (List.pairwise_append.mp hpairwise).2.1).1 (y, r') hy₂
    have hle : r'.confidence ≤ r.confidence :=
      Double.le_of_not_lt hnumber' (hnumber (y, r') hy) (hafter r' (List.mem_map_of_mem hy₂))
    exact (Double.lt_or_beq_of_le hle).imp_right fun hbeq => ⟨hbeq, .inr horder⟩

/-- What the chosen rule was made for comes first among what the best rules were made for. -/
theorem mostConfident_filter_eq_some {R : α → Rule → Prop} {l : List α} {rules : List Rule}
    (hrel : List.Forall₂ R l rules) (hl : l.Pairwise before)
    (hrules : ∀ r ∈ rules, Double.IsNumber r.confidence)
    (h : mostConfident (rules.filter q) = some r) :
    ∃ x ∈ l, R x r ∧ ∀ y ∈ l, ∃ r', R y r' ∧ (q r' = true → r'.confidence < r.confidence ∨
      (r'.confidence == r.confidence) = true ∧ (x = y ∨ before x y)) := by
  have hfst : (l.zip rules).map Prod.fst = l := List.map_fst_zip (Nat.le_of_eq hrel.length_eq)
  have hsnd : (l.zip rules).map Prod.snd = rules :=
    List.map_snd_zip (Nat.le_of_eq hrel.length_eq.symm)
  rw [← hsnd] at h
  obtain ⟨x, hx, hbest⟩ := mostConfident_map_snd (List.pairwise_map.mp (hfst.symm ▸ hl))
    (fun p hp => hrules p.2 (List.of_mem_zip hp).2) h
  refine ⟨x, (List.of_mem_zip hx).1, List.forall₂_zip hrel hx, ?_⟩
  intro y hy
  rw [← hfst] at hy
  obtain ⟨⟨y, r'⟩, hy', rfl⟩ := List.mem_map.mp hy
  exact ⟨r', List.forall₂_zip hrel hy', hbest y r' hy'⟩

end Labels

theorem mem_of_mostConfident_eq_some {rules : List Rule} (h : mostConfident rules = some r) :
    r ∈ rules := by
  cases rules with
  | nil => cases h
  | cons best rules =>
    cases h
    induction rules generalizing best with
    | nil => exact List.mem_cons_self
    | cons x rules ih =>
      rw [List.foldl_cons]
      split
      · exact List.mem_cons_of_mem best (ih x)
      · rcases List.mem_cons.mp (ih best) with heq | hmem
        · rw [heq]
          exact List.mem_cons_self
        · exact List.mem_cons_of_mem best (List.mem_cons_of_mem x hmem)

theorem mostConfident_eq_none_iff {rules : List Rule} :
    mostConfident rules = none ↔ rules = [] := by
  cases rules with
  | nil => exact iff_of_true rfl rfl
  | cons best rules => exact iff_of_false nofun nofun

end Rule

namespace ItemSet

/-! ## Made-up rules -/

variable {items : ItemSet}

theorem mem_of_firstOf_eq_some {tests : List (String → Bool)} {item : String}
    (h : items.firstOf tests = some item) : item ∈ items := by
  induction tests with
  | nil => cases h
  | cons test tests ih =>
    rw [firstOf] at h
    split at h
    · rename_i found hfound
      cases h
      exact List.mem_of_find?_eq_some hfound
    · exact ih h

theorem exists_firstOf_eq_some {tests : List (String → Bool)} {test : String → Bool}
    (htest : test ∈ tests) {item : String} (hitem : item ∈ items) (h : test item = true) :
    ∃ found, items.firstOf tests = some found := by
  induction tests with
  | nil => cases htest
  | cons test' tests ih =>
    rw [firstOf]
    split
    · exact ⟨_, rfl⟩
    · rename_i hnone
      rcases List.mem_cons.mp htest with rfl | htest
      · exact absurd h (List.find?_eq_none.mp hnone item hitem)
      · exact ih htest

theorem mem_of_chooseConsequent_eq_some {item : String}
    (h : items.chooseConsequent = some item) : item ∈ items :=
  mem_of_firstOf_eq_some h

theorem exists_chooseConsequent {item : String} (h : item ∈ items) :
    ∃ chosen, items.chooseConsequent = some chosen :=
  exists_firstOf_eq_some (List.mem_append_right _
    (List.mem_cons_of_mem _ (List.mem_cons_of_mem _ List.mem_cons_self))) h rfl

theorem synthesize_eq_error (h : items.size < 2) :
    items.synthesize = .error .emptyAntecedent := by
  rw [synthesize]
  cases hlast : items.toList.getLast? with
  | none => rfl
  | some last =>
    have hempty : ¬(items.erase last).isEmpty = false := by
      rw [SortedSet.isEmpty_erase_eq_false_iff (List.mem_of_getLast? hlast)]
      exact Nat.not_le_of_lt h
    simp only [Rule.make, dif_neg hempty]
    rfl

/-- A made-up rule has the chosen consequent, whatever item it was built with first. -/
theorem exists_synthesize (h : 2 ≤ items.size) :
    ∃ r : Rule, items.synthesize = .ok r ∧ items.chooseConsequent = some r.consequent ∧
      r.antecedent = items.erase r.consequent ∧ r.confidence = synthesizedConfidence ∧
      r.version = "" ∧ r.label = .unknown := by
  have hne : items.toList ≠ [] := by
    intro hnil
    rw [SortedSet.size, hnil] at h
    cases h
  obtain ⟨last, hlast⟩ : ∃ last, items.toList.getLast? = some last :=
    ⟨_, List.getLast?_eq_some_getLast hne⟩
  have hmem : last ∈ items := List.mem_of_getLast? hlast
  obtain ⟨chosen, hchosen⟩ := exists_chooseConsequent hmem
  have hfresh : ¬last ∈ items.erase last := by simp
  have hempty := (SortedSet.isEmpty_erase_eq_false_iff hmem).mpr h
  have hconfidence : isConfidence synthesizedConfidence = true := by decide
  obtain ⟨rule, hrule, hantecedent, rfl, hrest⟩ := Rule.exists_make hempty hfresh hconfidence
  rw [synthesize, hlast]
  simp only [hrule, hchosen, bind, Except.bind]
  split
  · rename_i heq
    exact ⟨rule, rfl, congrArg some heq, hantecedent, hrest⟩
  · rename_i hne
    have hchosenmem : chosen ∈ rule.antecedent :=
      hantecedent ▸ SortedSet.mem_erase.mpr ⟨mem_of_chooseConsequent_eq_some hchosen, hne⟩
    obtain ⟨r, hmove, hmoved, rfl, hconfidence', hversion, hlabel⟩ :=
      Rule.exists_moveToConsequent hne hchosenmem
    refine ⟨r, hmove, rfl, ?_, hconfidence'.trans hrest.1, hversion.trans hrest.2.1,
      hlabel.trans hrest.2.2⟩
    rw [hmoved, Rule.allItems_of_antecedent_eq hmem hantecedent]

end ItemSet

/-! ## Choosing a rule -/

section SelectRule

variable {rules : List Rule} {f : FrequentSet}

/-- The test of the sizes is implied by that of the items. -/
theorem rulesOver_eq_filter (rules : List Rule) (f : FrequentSet) :
    rulesOver rules f = rules.filter fun r => r.allItems = f.items && r.isMeaningful := by
  apply List.filter_congr
  intro r _
  by_cases hitems : r.allItems = f.items
  · have hsize : r.size = f.size := by rw [← r.size_allItems, hitems, FrequentSet.size]
    rw [decide_eq_true hsize, Bool.true_and]
  · rw [decide_eq_false hitems, Bool.and_false]

theorem mem_rulesOver {r : Rule} :
    r ∈ rulesOver rules f ↔ r ∈ rules ∧ r.allItems = f.items ∧ r.isMeaningful = true := by
  rw [rulesOver_eq_filter, List.mem_filter, Bool.and_eq_true, decide_eq_true_eq]

theorem size_antecedent_of_allItems_eq {r : Rule} (h : r.allItems = f.items) :
    r.antecedent.size + 1 = f.size := by
  rw [FrequentSet.size, ← h, r.size_allItems, Rule.size]

/-- Sizes never differ: a set gets the best of the rules over its items or a made-up rule. -/
theorem selectRule_eq (rules : List Rule) (f : FrequentSet) :
    selectRule rules f = match Rule.mostConfident (rulesOver rules f) with
      | some r => .ok r
      | none => f.items.synthesize := by
  rw [selectRule]
  cases hbest : Rule.mostConfident (rulesOver rules f) with
  | some r =>
    obtain ⟨-, hitems, -⟩ := mem_rulesOver.mp (Rule.mem_of_mostConfident_eq_some hbest)
    exact if_pos (size_antecedent_of_allItems_eq hitems)
  | none =>
    rcases Nat.lt_or_ge f.items.size 2 with hsmall | hlarge
    · simp only [ItemSet.synthesize_eq_error hsmall, bind, Except.bind]
    · obtain ⟨r, hsynthesize, hchosen, hantecedent, -⟩ := ItemSet.exists_synthesize hlarge
      have hitems := Rule.allItems_of_antecedent_eq
        (ItemSet.mem_of_chooseConsequent_eq_some hchosen) hantecedent
      simp only [hsynthesize, bind, Except.bind]
      exact if_pos (size_antecedent_of_allItems_eq hitems)

/-- A set of two items or more gets a rule over exactly its items. -/
theorem exists_selectRule (rules : List Rule) (h : 2 ≤ f.size) :
    ∃ r, selectRule rules f = .ok r ∧ r.allItems = f.items ∧
      (Rule.mostConfident (rulesOver rules f) = some r ∨
        rulesOver rules f = [] ∧ f.items.chooseConsequent = some r.consequent ∧
          r.confidence = synthesizedConfidence ∧ r.version = "" ∧ r.label = .unknown) := by
  rw [selectRule_eq]
  cases hbest : Rule.mostConfident (rulesOver rules f) with
  | some r =>
    obtain ⟨-, hitems, -⟩ := mem_rulesOver.mp (Rule.mem_of_mostConfident_eq_some hbest)
    exact ⟨r, rfl, hitems, .inl rfl⟩
  | none =>
    obtain ⟨r, hsynthesize, hchosen, hantecedent, hrest⟩ := ItemSet.exists_synthesize h
    have hitems := Rule.allItems_of_antecedent_eq
      (ItemSet.mem_of_chooseConsequent_eq_some hchosen) hantecedent
    exact ⟨r, hsynthesize, hitems, .inr ⟨Rule.mostConfident_eq_none_iff.mp hbest, hchosen, hrest⟩⟩

end SelectRule

end UsageRules
