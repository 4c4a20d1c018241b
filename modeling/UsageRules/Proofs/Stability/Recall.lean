import UsageRules.Fact
import UsageRules.Stability

/-! How much of a benchmark the current rules find. A rule of the benchmark is found if one current
rule has the items of both its sides, and found exactly if a current rule has the same sides. The
exact and the partial count of a recall add up to what is found, so the sum grows with the current
rules as the exact count does (`Recall.counts_recallOf`). The partial count alone need not grow. -/

namespace UsageRules

namespace Record

variable {r s t : Record}

/-- The same rule, whatever its id, its label and its review. -/
def SameSides (r s : Record) : Prop := r.antecedent = s.antecedent ∧ r.consequent = s.consequent

/-- The first has all items of the second, each on either side. -/
def HasItemsOf (r s : Record) : Prop :=
  ∀ item, item ∈ s.antecedent ∨ item ∈ s.consequent → item ∈ r.antecedent ∨ item ∈ r.consequent

theorem isExactly_iff : r.isExactly s = true ↔ r.SameSides s := by
  simp [isExactly, SameSides]

theorem covers_iff : r.covers s = true ↔ r.HasItemsOf s := by
  rw [covers, decide_eq_true_iff, SortedSet.subset_iff]
  simp only [items, SortedSet.mem_union, HasItemsOf]

instance : Decidable (r.SameSides s) := decidable_of_iff _ isExactly_iff

instance : Decidable (r.HasItemsOf s) := decidable_of_iff _ covers_iff

theorem SameSides.trans (h : r.SameSides s) (h' : s.SameSides t) : r.SameSides t :=
  ⟨h.1.trans h'.1, h.2.trans h'.2⟩

theorem SameSides.hasItemsOf (h : r.SameSides s) (h' : s.HasItemsOf t) : r.HasItemsOf t := by
  intro item hitem
  rw [h.1, h.2]
  exact h' item hitem

/-- Each of the first records has the sides of one of the second. -/
def SidesIn (current more : List Record) : Prop := ∀ r ∈ current, ∃ s ∈ more, s.SameSides r

instance (current more : List Record) : Decidable (SidesIn current more) :=
  inferInstanceAs (Decidable (∀ r ∈ current, ∃ s ∈ more, _))

theorem SidesIn.of_subset {current more : List Record} (h : current ⊆ more) :
    SidesIn current more :=
  fun r hr => ⟨r, h hr, rfl, rfl⟩

end Record

namespace Recall

/-! ## What is found -/

section
variable {current more : List Record} {e : Record}

def FoundExactly (current : List Record) (e : Record) : Prop := ∃ r ∈ current, r.SameSides e

def Found (current : List Record) (e : Record) : Prop := ∃ r ∈ current, r.HasItemsOf e

instance : Decidable (FoundExactly current e) := inferInstanceAs (Decidable (∃ r ∈ current, _))

instance : Decidable (Found current e) := inferInstanceAs (Decidable (∃ r ∈ current, _))

theorem any_isExactly_iff : current.any (·.isExactly e) = true ↔ FoundExactly current e := by
  simp only [List.any_eq_true, Record.isExactly_iff, FoundExactly]

theorem any_covers_iff : current.any (·.covers e) = true ↔ Found current e := by
  simp only [List.any_eq_true, Record.covers_iff, Found]

theorem FoundExactly.found (h : FoundExactly current e) : Found current e := by
  obtain ⟨r, hr, hsame⟩ := h
  exact ⟨r, hr, hsame.hasItemsOf fun _ hitem => hitem⟩

theorem FoundExactly.of_sidesIn (h : FoundExactly current e) (hin : Record.SidesIn current more) :
    FoundExactly more e := by
  obtain ⟨r, hr, hsame⟩ := h
  obtain ⟨s, hs, hsame'⟩ := hin r hr
  exact ⟨s, hs, hsame'.trans hsame⟩

theorem Found.of_sidesIn (h : Found current e) (hin : Record.SidesIn current more) :
    Found more e := by
  obtain ⟨r, hr, hitems⟩ := h
  obtain ⟨s, hs, hsame⟩ := hin r hr
  exact ⟨s, hs, hsame.hasItemsOf hitems⟩

end

/-! ## Counts -/

/-- What has the stronger property and what has only the weaker make up what has the weaker. -/
theorem countP_add_countP_not_and {α : Type} {p q : α → Bool} (h : ∀ a, p a = true → q a = true)
    (l : List α) : l.countP p + l.countP (fun a => !p a && q a) = l.countP q := by
  rw [List.countP_eq_countP_filter_add l q p, List.countP_filter, List.countP_filter]
  congr 1
  · exact List.countP_congr fun a _ => by simpa using h a
  · exact List.countP_congr fun a _ => by simp [and_comm]

section
variable (benchmark : List Record) {current more : List Record}

theorem exactly_recallOf (current : List Record) :
    (recallOf benchmark current).exactly = benchmark.countP fun e => FoundExactly current e :=
  List.countP_congr fun e _ => by rw [any_isExactly_iff, decide_eq_true_eq]

theorem exactly_add_partly_recallOf (current : List Record) :
    (recallOf benchmark current).exactly + (recallOf benchmark current).partly =
      benchmark.countP fun e => Found current e := by
  have hexact : ∀ e : Record,
      current.any (·.isExactly e) = true → current.any (·.covers e) = true :=
    fun e he => any_covers_iff.mpr (any_isExactly_iff.mp he).found
  calc (recallOf benchmark current).exactly + (recallOf benchmark current).partly
      = benchmark.countP fun e => current.any (·.covers e) :=
        countP_add_countP_not_and hexact benchmark
    _ = benchmark.countP fun e => Found current e :=
        List.countP_congr fun e _ => by rw [any_covers_iff, decide_eq_true_eq]

theorem exactly_le_of_sidesIn (h : Record.SidesIn current more) :
    (recallOf benchmark current).exactly ≤ (recallOf benchmark more).exactly := by
  rw [exactly_recallOf, exactly_recallOf]
  refine List.countP_mono_left fun e _ he => ?_
  exact decide_eq_true ((of_decide_eq_true he).of_sidesIn h)

theorem found_le_of_sidesIn (h : Record.SidesIn current more) :
    (recallOf benchmark current).exactly + (recallOf benchmark current).partly ≤
      (recallOf benchmark more).exactly + (recallOf benchmark more).partly := by
  rw [exactly_add_partly_recallOf, exactly_add_partly_recallOf]
  refine List.countP_mono_left fun e _ he => ?_
  exact decide_eq_true ((of_decide_eq_true he).of_sidesIn h)

theorem recallOf_eq_of_sidesIn (h : Record.SidesIn current more)
    (h' : Record.SidesIn more current) :
    recallOf benchmark current = recallOf benchmark more := by
  have hexactly := Nat.le_antisymm (exactly_le_of_sidesIn benchmark h)
    (exactly_le_of_sidesIn benchmark h')
  have hfound := Nat.le_antisymm (found_le_of_sidesIn benchmark h)
    (found_le_of_sidesIn benchmark h')
  have hpartly : (recallOf benchmark current).partly = (recallOf benchmark more).partly := by omega
  rw [mk.injEq]
  exact ⟨hexactly, hpartly, rfl⟩

end

/-- What a recall says of the rules of a benchmark. -/
structure Counts (counts : Recall) (benchmark current : List Record) : Prop where
  exactly_eq : counts.exactly = benchmark.countP fun e => FoundExactly current e
  found_eq : counts.exactly + counts.partly = benchmark.countP fun e => Found current e
  found_le : counts.exactly + counts.partly ≤ benchmark.length
  benchmark_eq : counts.benchmark = benchmark.length

/-- A recall counts the rules of the benchmark that are found exactly and those that are found at
all. Neither count decreases when current rules are added anywhere, and both stay the same when the
current rules are rearranged or repeated, or get other ids and labels. -/
theorem counts_recallOf (benchmark current : List Record) :
    (recallOf benchmark current).Counts benchmark current ∧
    (∀ more, Record.SidesIn current more →
      (recallOf benchmark current).exactly ≤ (recallOf benchmark more).exactly ∧
      (recallOf benchmark current).exactly + (recallOf benchmark current).partly ≤
        (recallOf benchmark more).exactly + (recallOf benchmark more).partly) ∧
    ∀ other, Record.SidesIn current other → Record.SidesIn other current →
      recallOf benchmark current = recallOf benchmark other := by
  have hfound := exactly_add_partly_recallOf benchmark current
  refine ⟨⟨exactly_recallOf benchmark current, hfound, ?_, rfl⟩, fun more h => ?_,
    fun other h h' => ?_⟩
  · rw [hfound]
    exact List.countP_le_length
  · exact ⟨exactly_le_of_sidesIn benchmark h, found_le_of_sidesIn benchmark h⟩
  · exact recallOf_eq_of_sidesIn benchmark h h'

def injectedField : Record := .make
  (.singleton (Fact.text "Field" "annotatedWith" "Annotation_ConfigProperty"))
  (.singleton (Fact.text "Field" "annotatedWith" "Annotation_Inject")) .correct

/-- The same items the other way round, and one more. -/
def injectedBeanField : Record := .make
  (.ofList [
    Fact.text "Class" "annotatedWith" "Annotation_Bean",
    Fact.text "Field" "annotatedWith" "Annotation_Inject"])
  (.singleton (Fact.text "Field" "annotatedWith" "Annotation_ConfigProperty")) .unknown

/-- What is found partly is found exactly once the rule itself is added, and stays so if both rules
are given again under other ids. -/
theorem counts_recallOf_injectedField :
    Record.SidesIn [injectedBeanField] [injectedField, injectedBeanField] ∧
    (recallOf [injectedField] [injectedBeanField]).exactly ≤
      (recallOf [injectedField] [injectedField, injectedBeanField]).exactly ∧
    recallOf [injectedField] [injectedField, injectedBeanField] =
      recallOf [injectedField]
        [injectedBeanField, { injectedField with id := 7 }, injectedBeanField] := by
  have hadded : Record.SidesIn [injectedBeanField] [injectedField, injectedBeanField] :=
    .of_subset (List.subset_cons_self ..)
  have hmonotone := ((counts_recallOf [injectedField] [injectedBeanField]).2.1 _ hadded).1
  have hrearranged := (counts_recallOf [injectedField] [injectedField, injectedBeanField]).2.2
    [injectedBeanField, { injectedField with id := 7 }, injectedBeanField] (by decide) (by decide)
  exact ⟨hadded, hmonotone, hrearranged⟩

example : recallOf [injectedField] [injectedBeanField] = ⟨0, 1, 1⟩ ∧
    recallOf [injectedField] [injectedField, injectedBeanField] = ⟨1, 0, 1⟩ := by decide +kernel

end Recall

end UsageRules
