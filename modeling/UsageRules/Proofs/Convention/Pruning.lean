import UsageRules.Convention.Reduction
import UsageRules.Convention.Validity
import UsageRules.Proofs.Fact

/-! What pruning can take away from an item set. Only parameters are taken out, and the annotation
of a parameter is declared by another item, which stays if it is no required parameter itself. So
the rest is meaningful (`ItemSet.isMeaningful_strip`), and it mentions what the set mentions except
for texts that stand in required parameters only, behind the annotation
(`ItemSet.mentions_strip_or_onlyInParams`). -/

namespace UsageRules

namespace ItemSet

variable {items : ItemSet} {required : RequiredParams}

theorem mem_strip {item : String} :
    item ∈ items.strip required ↔ item ∈ items ∧ required.requires item = false := by
  rw [strip, SortedSet.mem_filter, Bool.not_eq_true']

/-- What is left has nothing to prune. -/
theorem strip_strip (items : ItemSet) (required : RequiredParams) :
    (items.strip required).strip required = items.strip required := by
  ext item
  rw [mem_strip]
  exact and_iff_left_of_imp fun hitem => (mem_strip.mp hitem).2

theorem mentions_iff {text : String} :
    items.mentions text = true ↔ ∃ item ∈ items, Text.occursIn text item = true := List.any_eq_true

theorem isMeaningful_iff_forall_declares :
    items.isMeaningful = true ↔ ∀ param ∈ items, ∀ label, Fact.parameterized? param = some label →
      ∃ item ∈ items, Fact.declares item label = true := by
  simp only [isMeaningful, List.all_eq_true, SortedSet.mem_toList]
  refine forall₂_congr fun param _ => ?_
  cases hparam : Fact.parameterized? param with
  | none => simp [supportsItem, hparam]
  | some label => simp [supportsItem, hparam, Fact.declaredIn, SortedSet.mem_toList]

/-- No required parameter declares the annotation of a parameter. -/
def KeepsDeclarations (items : ItemSet) (required : RequiredParams) : Prop :=
  ∀ param ∈ items, ∀ label ∈ Fact.parameterized? param, ∀ item ∈ items,
    Fact.declares item label = true → required.requires item = false

instance : Decidable (items.KeepsDeclarations required) :=
  decidable_of_iff (∀ param ∈ items.toList, ∀ label ∈ Fact.parameterized? param,
    ∀ item ∈ items.toList, Fact.declares item label = true → required.requires item = false) .rfl

/-- The text stands in required parameters only, and there not in the label of the annotation. -/
def OnlyInParams (items : ItemSet) (required : RequiredParams) (text : String) : Prop :=
  ∀ item ∈ items, Text.occursIn text item = true → required.requires item = true ∧
    ∀ label ∈ Fact.parameterized? item, Text.occursIn text label = false

instance (text : String) : Decidable (items.OnlyInParams required text) :=
  decidable_of_iff (∀ item ∈ items.toList, Text.occursIn text item = true →
    required.requires item = true ∧
      ∀ label ∈ Fact.parameterized? item, Text.occursIn text label = false) .rfl

theorem isMeaningful_strip (hkeeps : items.KeepsDeclarations required)
    (h : items.isMeaningful = true) : (items.strip required).isMeaningful = true := by
  rw [isMeaningful_iff_forall_declares] at h ⊢
  intro param hparam label hlabel
  have hmem := (mem_strip.mp hparam).1
  obtain ⟨item, hitem, hdeclares⟩ := h param hmem label hlabel
  exact ⟨item, mem_strip.mpr ⟨hitem, hkeeps param hmem label hlabel item hitem hdeclares⟩,
    hdeclares⟩

/-- A text in the label of an annotation is kept with the item that declares the annotation. -/
theorem mentions_strip_or_onlyInParams (hkeeps : items.KeepsDeclarations required)
    (h : items.isMeaningful = true) (text : String) :
    (items.strip required).mentions text = true ∨ items.OnlyInParams required text := by
  rw [isMeaningful_iff_forall_declares] at h
  by_cases hmentions : (items.strip required).mentions text = true
  · exact .inl hmentions
  right
  have hlost : ∀ item ∈ items, Text.occursIn text item = true → required.requires item = true := by
    intro item hitem htext
    by_contra hnot
    exact hmentions
      (mentions_iff.mpr ⟨item, mem_strip.mpr ⟨hitem, Bool.eq_false_iff.mpr hnot⟩, htext⟩)
  intro param hparam htext
  refine ⟨hlost param hparam htext, fun label hlabel => Bool.eq_false_iff.mpr fun hin => ?_⟩
  obtain ⟨item, hitem, hdeclares⟩ := h param hparam label hlabel
  have hrequired := hlost item hitem (Fact.occursIn_of_declares hdeclares hin)
  rw [hkeeps param hparam label hlabel item hitem hdeclares] at hrequired
  cases hrequired

end ItemSet

end UsageRules
