import UsageRules.Proofs.SortedMap
import UsageRules.Redundancy

/-! The review of correct rules for duplicates. A report puts each correct rule into the part that
its stored mark names, so the parts add up to the correct rules
(`RedundancyReport.compute_accountsFor`). A check goes through all rules and fails at the first that
needs a review (`checkComplete_eq`). Both read the marks in the same way: the check succeeds if
every rule has a label and the report has no rule without a decision
(`RedundancyReport.accounts_and_completeness`). -/

namespace UsageRules

namespace Record

variable {r : Record} {id : RuleId}

def IsCorrect (r : Record) : Prop := r.label = .correct ∨ r.label = .partlyCorrect

/-- No decision is stored, or the zero that stands for none. -/
def IsUndecided (r : Record) : Prop := r.sameAs = none ∨ r.sameAs = some 0

/-- The mark of a rule that stands for itself is stored. -/
def IsCanonical (r : Record) : Prop := r.sameAs = some (-1)

/-- The id of a rule is stored, which is none of the two marks. -/
def Repeats (r : Record) (id : RuleId) : Prop := r.sameAs = some id ∧ id ≠ 0 ∧ id ≠ -1

/-- A label is missing, or a decision on a correct rule. -/
def NeedsReview (r : Record) : Prop := r.label = .unknown ∨ (r.IsCorrect ∧ r.IsUndecided)

instance : Decidable r.IsCorrect := inferInstanceAs (Decidable (_ ∨ _))

instance : Decidable r.IsUndecided := inferInstanceAs (Decidable (_ ∨ _))

instance : Decidable r.IsCanonical := inferInstanceAs (Decidable (_ = _))

instance : Decidable (r.Repeats id) := inferInstanceAs (Decidable (_ ∧ _))

instance : Decidable r.NeedsReview := inferInstanceAs (Decidable (_ ∨ _))

theorem isCorrectOrPartly_iff : r.label.isCorrectOrPartly = true ↔ r.IsCorrect := by
  simp [Label.isCorrectOrPartly, IsCorrect]

theorem duplicate_eq_unreviewed_iff : r.duplicate = .unreviewed ↔ r.IsUndecided := by
  unfold duplicate IsUndecided
  grind

theorem duplicate_eq_canonical_iff : r.duplicate = .canonical ↔ r.IsCanonical := by
  unfold duplicate IsCanonical
  grind

theorem duplicate_eq_duplicateOf_iff : r.duplicate = .duplicateOf id ↔ r.Repeats id := by
  unfold duplicate Repeats
  grind

end Record

/-! ## The report -/

namespace RedundancyReport

/-- What a report says of the correct rules among the records. -/
structure AccountsFor (report : RedundancyReport) (records : List Record) : Prop where
  correctOrPartly_eq : report.correctOrPartly = records.countP fun r => r.IsCorrect
  correctOrPartly_eq_add : report.correctOrPartly = report.unreviewed.length +
    report.redundantTotal + records.countP fun r => r.IsCorrect ∧ r.IsCanonical
  mem_unique : ∀ id, id ∈ report.unique ↔
    ∃ r ∈ records, (r.IsCorrect ∧ r.IsCanonical) ∧ r.id = id
  unreviewed_eq : report.unreviewed =
    (records.filter fun r => r.IsCorrect ∧ r.IsUndecided).map (·.id)
  tallies_redundant : report.redundant.Tallies fun id =>
    records.countP fun r => r.IsCorrect ∧ r.Repeats id

variable {report : RedundancyReport} {records : List Record} {r : Record}

theorem countP_concat (p : Record → Prop) [DecidablePred p] :
    (records ++ [r]).countP (fun r => p r) =
      records.countP (fun r => p r) + if p r then 1 else 0 := by
  rw [List.countP_append, List.countP_singleton]
  simp only [decide_eq_true_eq]

theorem accountsFor_nil : AccountsFor ⟨0, ∅, ∅, []⟩ [] where
  correctOrPartly_eq := rfl
  correctOrPartly_eq_add := rfl
  mem_unique id := by simp
  unreviewed_eq := rfl
  tallies_redundant := SortedMap.tallies_empty

theorem AccountsFor.skip (h : report.AccountsFor records) (hr : ¬r.IsCorrect) :
    report.AccountsFor (records ++ [r]) where
  correctOrPartly_eq := by simp [h.correctOrPartly_eq, hr]
  correctOrPartly_eq_add := by simp [h.correctOrPartly_eq_add, hr]
  mem_unique id := by simp [h.mem_unique, or_and_right, exists_or, hr]
  unreviewed_eq := by simp [h.unreviewed_eq, hr]
  tallies_redundant := h.tallies_redundant.congr fun id => by simp [hr]

theorem AccountsFor.add_of_isUndecided (h : report.AccountsFor records) (hr : r.IsCorrect)
    (hundecided : r.IsUndecided) : (report.add r).AccountsFor (records ++ [r]) := by
  have hduplicate := Record.duplicate_eq_unreviewed_iff.mpr hundecided
  have hcanonical : ¬r.IsCanonical := by simp [← Record.duplicate_eq_canonical_iff, hduplicate]
  have hrepeats : ∀ id, ¬r.Repeats id := by simp [← Record.duplicate_eq_duplicateOf_iff, hduplicate]
  have hsum := h.correctOrPartly_eq_add
  rw [RedundancyReport.add, hduplicate]
  constructor
  · simp [h.correctOrPartly_eq, hr]
  · simp only [redundantTotal, List.length_append, List.length_singleton, countP_concat, hcanonical,
      and_false, if_false] at hsum ⊢
    omega
  · simp [h.mem_unique, or_and_right, exists_or, hcanonical]
  · simp [h.unreviewed_eq, hr, hundecided]
  · exact h.tallies_redundant.congr fun id => by simp [hrepeats]

theorem AccountsFor.add_of_isCanonical (h : report.AccountsFor records) (hr : r.IsCorrect)
    (hcanonical : r.IsCanonical) : (report.add r).AccountsFor (records ++ [r]) := by
  have hduplicate := Record.duplicate_eq_canonical_iff.mpr hcanonical
  have hundecided : ¬r.IsUndecided := by simp [← Record.duplicate_eq_unreviewed_iff, hduplicate]
  have hrepeats : ∀ id, ¬r.Repeats id := by simp [← Record.duplicate_eq_duplicateOf_iff, hduplicate]
  have hsum := h.correctOrPartly_eq_add
  rw [RedundancyReport.add, hduplicate]
  constructor
  · simp [h.correctOrPartly_eq, hr]
  · simp only [redundantTotal, countP_concat, hr, hcanonical, and_true, if_true] at hsum ⊢
    omega
  · simp [h.mem_unique, or_and_right, exists_or, hr, hcanonical, or_comm, eq_comm]
  · simp [h.unreviewed_eq, hundecided]
  · exact h.tallies_redundant.congr fun id => by simp [hrepeats]

theorem AccountsFor.add_of_repeats {id : RuleId} (h : report.AccountsFor records)
    (hr : r.IsCorrect) (hrepeats : r.Repeats id) : (report.add r).AccountsFor (records ++ [r]) := by
  have hduplicate := Record.duplicate_eq_duplicateOf_iff.mpr hrepeats
  have hundecided : ¬r.IsUndecided := by simp [← Record.duplicate_eq_unreviewed_iff, hduplicate]
  have hcanonical : ¬r.IsCanonical := by simp [← Record.duplicate_eq_canonical_iff, hduplicate]
  have hsum := h.correctOrPartly_eq_add
  have htotal := report.redundant.total_values_update id fun n => n.getD 0 + 1
  rw [RedundancyReport.add, hduplicate]
  constructor
  · simp [h.correctOrPartly_eq, hr]
  · simp only [redundantTotal, countP_concat, hcanonical, and_false, if_false] at hsum ⊢
    omega
  · simp [h.mem_unique, or_and_right, exists_or, hcanonical]
  · simp [h.unreviewed_eq, hundecided]
  · refine (h.tallies_redundant.update id).congr fun id' => ?_
    have hid : r.Repeats id' ↔ id' = id := by
      rw [← Record.duplicate_eq_duplicateOf_iff, hduplicate, Duplicate.duplicateOf.injEq, eq_comm]
    simp only [countP_concat, hr, hid, true_and]

theorem AccountsFor.add (h : report.AccountsFor records) (hr : r.IsCorrect) :
    (report.add r).AccountsFor (records ++ [r]) := by
  cases hduplicate : r.duplicate with
  | unreviewed => exact h.add_of_isUndecided hr (Record.duplicate_eq_unreviewed_iff.mp hduplicate)
  | canonical => exact h.add_of_isCanonical hr (Record.duplicate_eq_canonical_iff.mp hduplicate)
  | duplicateOf id => exact h.add_of_repeats hr (Record.duplicate_eq_duplicateOf_iff.mp hduplicate)

theorem AccountsFor.foldl (h : report.AccountsFor records) (rest : List Record) :
    ((rest.filter (·.label.isCorrectOrPartly)).foldl RedundancyReport.add report).AccountsFor
      (records ++ rest) := by
  -- records that are not correct are seen, but not added
  induction rest generalizing report records with
  | nil => simpa using h
  | cons r rest ih =>
    rw [List.append_cons]
    by_cases hr : r.IsCorrect
    · rw [List.filter_cons, if_pos (Record.isCorrectOrPartly_iff.mpr hr)]
      exact ih (h.add hr)
    · rw [List.filter_cons, if_neg (mt Record.isCorrectOrPartly_iff.mp hr)]
      exact ih (h.skip hr)

theorem compute_accountsFor (records : List Record) : (compute records).AccountsFor records :=
  accountsFor_nil.foldl records

end RedundancyReport

/-! ## The check -/

/-- What a review of the rule lacks, if it lacks anything. -/
def Record.gap (r : Record) : ReviewGap :=
  if r.label = .unknown then .unknownLabel else .noDuplicateDecision

theorem Record.reviewGap?_eq (r : Record) :
    r.reviewGap? = if r.NeedsReview then some r.gap else none := by
  have hdecision : (r.label.isCorrectOrPartly && decide (r.duplicate = .unreviewed)) = true ↔
      r.IsCorrect ∧ r.IsUndecided := by
    rw [Bool.and_eq_true, isCorrectOrPartly_iff, decide_eq_true_iff, duplicate_eq_unreviewed_iff]
  simp only [reviewGap?, NeedsReview, gap, Label.isUnknown]
  by_cases hunknown : r.label = .unknown
  · simp [hunknown]
  · simp [hunknown, hdecision]

theorem checkComplete_eq (records : List Record) :
    checkComplete records = match records.find? (·.NeedsReview) with
      | none => .ok ()
      | some r => .error (.incompleteReview r.id r.gap) := by
  induction records with
  | nil => rfl
  | cons r records ih =>
    rw [checkComplete, r.reviewGap?_eq]
    by_cases hr : r.NeedsReview
    · rw [if_pos hr, List.find?_cons_of_pos (by simpa using hr)]
    · rw [if_neg hr, List.find?_cons_of_neg (by simpa using hr)]
      exact ih

theorem checkComplete_eq_ok_iff {records : List Record} :
    checkComplete records = .ok () ↔ ∀ r ∈ records, ¬r.NeedsReview := by
  rw [checkComplete_eq]
  cases hfind : records.find? (·.NeedsReview) with
  | none => simpa using hfind
  | some r =>
    have hneeds : r.NeedsReview := by simpa using List.find?_some hfind
    have hmem := List.mem_of_find?_eq_some hfind
    simpa using ⟨r, hmem, hneeds⟩

theorem checkComplete_eq_error_iff {records : List Record} {e : RulesError} :
    checkComplete records = .error e ↔ ∃ before r after, records = before ++ r :: after ∧
      (∀ s ∈ before, ¬s.NeedsReview) ∧ r.NeedsReview ∧ e = .incompleteReview r.id r.gap := by
  rw [checkComplete_eq]
  constructor
  · intro hcheck
    cases hfind : records.find? (·.NeedsReview) with
    | none =>
      rw [hfind] at hcheck
      cases hcheck
    | some r =>
      rw [hfind] at hcheck
      obtain ⟨hneeds, before, after, hrecords, hbefore⟩ := List.find?_eq_some_iff_append.mp hfind
      exact ⟨before, r, after, hrecords, by simpa using hbefore, of_decide_eq_true hneeds,
        (Except.error.inj hcheck).symm⟩
  · rintro ⟨before, r, after, hrecords, hbefore, hneeds, rfl⟩
    have hfind : records.find? (·.NeedsReview) = some r :=
      List.find?_eq_some_iff_append.mpr
        ⟨decide_eq_true hneeds, before, after, hrecords, by simpa using hbefore⟩
    rw [hfind]

namespace RedundancyReport

/-- A report counts each correct rule in one of its parts: those without a decision, those that
repeat another rule, and the canonical ones, of which it keeps the ids. The review of the rules is
complete if no label is unknown and the report has no rule without a decision. If it is not, the
check names the first rule that has an unknown label, or is correct and without a decision. -/
theorem accounts_and_completeness (records : List Record) :
    (compute records).AccountsFor records ∧
    (checkComplete records = .ok () ↔
      (∀ r ∈ records, r.label ≠ .unknown) ∧ (compute records).unreviewed = []) ∧
    ∀ e, checkComplete records = .error e ↔ ∃ before r after, records = before ++ r :: after ∧
      (∀ s ∈ before, ¬s.NeedsReview) ∧ r.NeedsReview ∧ e = .incompleteReview r.id r.gap := by
  refine ⟨compute_accountsFor records, ?_, fun e => checkComplete_eq_error_iff⟩
  rw [checkComplete_eq_ok_iff, (compute_accountsFor records).unreviewed_eq, List.map_eq_nil_iff,
    List.filter_eq_nil_iff]
  simp only [Record.NeedsReview, not_or, decide_eq_true_eq, forall_and, ne_eq]

end RedundancyReport

end UsageRules
