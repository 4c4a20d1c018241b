import Mathlib.Data.List.Forall2
import UsageRules.Convention.Known

/-! Labelling the rules that extend known patterns. It may only change the label of a record
(`Record.forall₂_autoLabel`), takes what it labels from those that are unknown
(`Record.autoLabelCount_add_unknown`), and is done after once (`Record.autoLabel_autoLabel`). -/

namespace UsageRules.Record

variable {patterns : List ItemSet} {r s : Record} {records : List Record}

theorem extendsPattern_iff :
    r.extendsPattern patterns = true ↔
      r.label = .unknown ∧ 2 < r.items.size ∧ ∃ p ∈ patterns, p ⊆ r.items := by
  simp [extendsPattern, Label.isUnknown, and_assoc]

/-- A record as it was before, but perhaps for its label. That has changed if it was unknown, and
the record has more than two items and all those of a pattern. -/
structure IsLabelled (patterns : List ItemSet) (r s : Record) : Prop where
  id : s.id = r.id
  antecedent : s.antecedent = r.antecedent
  consequent : s.consequent = r.consequent
  sameAs : s.sameAs = r.sameAs
  label : s.label = r.label ∨ s.label = .partlyCorrect
  label_ne_iff : s.label ≠ r.label ↔
    r.label = .unknown ∧ 2 < r.items.size ∧ ∃ p ∈ patterns, p ⊆ r.items

theorem isLabelled_of_extendsPattern (h : r.extendsPattern patterns = true) :
    IsLabelled patterns r { r with label := .partlyCorrect } where
  id := rfl
  antecedent := rfl
  consequent := rfl
  sameAs := rfl
  label := .inr rfl
  label_ne_iff := by
    have hextends := extendsPattern_iff.mp h
    simp [hextends]

theorem isLabelled_self (h : ¬r.extendsPattern patterns = true) : IsLabelled patterns r r where
  id := rfl
  antecedent := rfl
  consequent := rfl
  sameAs := rfl
  label := .inl rfl
  label_ne_iff := by
    rw [extendsPattern_iff] at h
    exact ⟨fun hne => absurd rfl hne, fun hextends => absurd hextends h⟩

theorem forall₂_autoLabel (patterns : List ItemSet) (records : List Record) :
    List.Forall₂ (IsLabelled patterns) records (autoLabel patterns records) := by
  rw [autoLabel, List.forall₂_map_right_iff, List.forall₂_same]
  intro r _
  split
  · exact isLabelled_of_extendsPattern ‹_›
  · exact isLabelled_self ‹_›

/-! ## Counts -/

/-- A record that is labelled once does not extend a pattern any more, as its label is known. -/
theorem not_extendsPattern_of_mem_autoLabel (h : s ∈ autoLabel patterns records) :
    s.extendsPattern patterns = false := by
  obtain ⟨r, -, rfl⟩ := List.mem_map.mp h
  split
  · rfl
  · rename_i hextends
    exact eq_false_of_ne_true hextends

theorem autoLabelCount_autoLabel (patterns : List ItemSet) (records : List Record) :
    autoLabelCount patterns (autoLabel patterns records) = 0 :=
  List.countP_eq_zero.mpr fun s hs => by simp [not_extendsPattern_of_mem_autoLabel hs]

theorem autoLabel_autoLabel (patterns : List ItemSet) (records : List Record) :
    autoLabel patterns (autoLabel patterns records) = autoLabel patterns records := by
  refine (List.map_congr_left fun s hs => ?_).trans (List.map_id _)
  rw [not_extendsPattern_of_mem_autoLabel hs]
  rfl

/-- A record counts as labelled or as unknown after the labelling if it was unknown before. -/
theorem labelled_add_unknown (patterns : List ItemSet) (r : Record) :
    (if r.extendsPattern patterns then 1 else 0) +
      (if (if r.extendsPattern patterns then { r with label := .partlyCorrect }
        else r).label.isUnknown then 1 else 0) = if r.label.isUnknown then 1 else 0 := by
  by_cases h : r.extendsPattern patterns = true
  · have hunknown : r.label = .unknown := (extendsPattern_iff.mp h).1
    simp [h, hunknown, Label.isUnknown]
  · simp [h]

/-- What is labelled and what stays unknown is what was unknown. -/
theorem autoLabelCount_add_unknown (patterns : List ItemSet) (records : List Record) :
    autoLabelCount patterns records + (autoLabel patterns records).countP (·.label.isUnknown) =
      records.countP (·.label.isUnknown) := by
  induction records with
  | nil => rfl
  | cons r records ih =>
    have hstep := labelled_add_unknown patterns r
    rw [autoLabelCount, autoLabel] at ih ⊢
    simp only [List.map_cons, List.countP_cons]
    omega

/-- The records that are counted are those of which the label has changed. -/
theorem countP_label_ne (patterns : List ItemSet) (records : List Record) :
    (records.zip (autoLabel patterns records)).countP (fun e => e.2.label ≠ e.1.label) =
      autoLabelCount patterns records := by
  induction records with
  | nil => rfl
  | cons r records ih =>
    have hstep : (if r.extendsPattern patterns then { r with label := .partlyCorrect }
        else r).label ≠ r.label ↔ r.extendsPattern patterns = true := by
      by_cases h : r.extendsPattern patterns = true
      · have hunknown : r.label = .unknown := (extendsPattern_iff.mp h).1
        simp [h, hunknown]
      · simp [h]
    rw [autoLabelCount, autoLabel] at ih ⊢
    simp only [List.map_cons, List.zip_cons_cons, List.countP_cons, decide_eq_true_eq, hstep, ih]

end UsageRules.Record
