import UsageRules.Fact
import UsageRules.Proofs.Decimal.Comparison
import UsageRules.Proofs.Rule.Basic

/-! Rules under operations. No operation changes the items of a rule or its confidence, whether it
fails or not (`Rule.follows_perform`). So the sides of a rule depend on its items and on the item
that was moved last, and on nothing else (`Rule.stateOf_performAll`). -/

namespace UsageRules

namespace Rule

variable {r r' r'' : Rule} {antecedent : ItemSet} {consequent : String} {confidence : Float}

/-! ## One operation -/

theorem moveInPlace_eq_of_failed {item : String} {error : RuleError}
    (h : (r.moveInPlace item).2 = some error) : (r.moveInPlace item).1 = r := by
  rcases r.moveInPlace_cases item with ⟨-, hmove⟩ | ⟨-, hmove⟩ | ⟨-, -, r', hmove, -⟩
  · rw [hmove]
  · rw [hmove]
  · rw [hmove] at h
    cases h

/-- A move fails for the consequent and for what is no item of the rule, and for nothing else. -/
theorem moveInPlace_failed_iff {item : String} {error : RuleError} :
    (r.moveInPlace item).2 = some error ↔
      item = r.consequent ∧ error = .alreadyConsequent item ∨
        ¬item ∈ r.allItems ∧ error = .notInAntecedent item := by
  rcases r.moveInPlace_cases item with ⟨heq, hmove⟩ | ⟨hnot, hmove⟩ | ⟨hne, hmem, r', hmove, -⟩
  · rw [hmove]
    simp [heq, r.consequent_mem_allItems, eq_comm]
  · have hne : ¬item = r.consequent := fun heq => hnot (heq ▸ r.consequent_mem_allItems)
    rw [hmove]
    simp [hne, hnot, eq_comm]
  · have hitem : item ∈ r.allItems := SortedSet.mem_insert.mpr (.inr hmem)
    rw [hmove]
    simp [hne, hitem]

/-- The item that an operation moves, unless it fails. -/
def moved? (r : Rule) : Operation → Option String
  | .move item => if (r.moveInPlace item).2.isNone then some item else none
  | .setVersion _ | .setLabel _ => none

/-- A rule with the items and the confidence of another; its consequent is the item that was moved
last, if any was. -/
structure Follows (r : Rule) (last : Option String) (r' : Rule) : Prop where
  allItems_eq : r'.allItems = r.allItems
  confidence_eq : r'.confidence = r.confidence
  consequent_eq : r'.consequent = last.getD r.consequent

theorem Follows.refl (r : Rule) : Follows r none r := ⟨rfl, rfl, rfl⟩

theorem Follows.trans {last last' : Option String} (h : Follows r last r')
    (h' : Follows r' last' r'') : Follows r (last'.or last) r'' := by
  refine ⟨h'.allItems_eq.trans h.allItems_eq, h'.confidence_eq.trans h.confidence_eq, ?_⟩
  rw [h'.consequent_eq, h.consequent_eq]
  cases last' <;> rfl

theorem follows_perform (r : Rule) (operation : Operation) :
    Follows r (r.moved? operation) (r.perform operation).1 := by
  cases operation with
  | move item =>
    rw [moved?, perform]
    rcases r.moveInPlace_cases item with
      ⟨-, hmove⟩ | ⟨-, hmove⟩ | ⟨-, hmem, r', hmove, hantecedent, hconsequent, hconfidence, -⟩
    · rw [hmove]
      exact .refl r
    · rw [hmove]
      exact .refl r
    · rw [hmove]
      refine ⟨?_, hconfidence, hconsequent⟩
      subst hconsequent
      exact allItems_of_antecedent_eq (SortedSet.mem_insert.mpr (.inr hmem)) hantecedent
  | setVersion version => exact ⟨rfl, rfl, rfl⟩
  | setLabel label => exact ⟨rfl, rfl, rfl⟩

/-! ## Sequences of operations -/

/-- The items that a sequence of operations moves, in order; moves that fail do not count. -/
def moved (r : Rule) : List Operation → List String
  | [] => []
  | operation :: operations =>
    (r.moved? operation).toList ++ (r.perform operation).1.moved operations

theorem getLast?_moved_cons (r : Rule) (operation : Operation) (operations : List Operation) :
    (r.moved (operation :: operations)).getLast? =
      ((r.perform operation).1.moved operations).getLast?.or (r.moved? operation) := by
  rw [moved, List.getLast?_append]
  cases r.moved? operation <;> rfl

theorem follows_performAll (r : Rule) (operations : List Operation) :
    Follows r (r.moved operations).getLast? (r.performAll operations) := by
  induction operations generalizing r with
  | nil => exact .refl r
  | cons operation operations ih =>
    rw [getLast?_moved_cons]
    exact (r.follows_perform operation).trans (ih (r.perform operation).1)

/-- The rule is a state of one that was made with these sides and this confidence. -/
structure StateOf (antecedent : ItemSet) (consequent : String) (confidence : Float) (r : Rule) :
    Prop where
  nonempty : r.antecedent.isEmpty = false
  fresh : ¬r.consequent ∈ r.antecedent
  allItems_eq : r.allItems = antecedent.insert consequent
  size_eq : r.size = antecedent.size + 1
  confidence_eq : r.confidence = confidence
  /-- A move fails for the consequent and for what is no item of the rule. -/
  failed_iff : ∀ item error, (r.moveInPlace item).2 = some error ↔
    item = r.consequent ∧ error = .alreadyConsequent item ∨
      ¬item ∈ antecedent.insert consequent ∧ error = .notInAntecedent item
  /-- A move that fails changes nothing. -/
  eq_of_failed : ∀ item error, (r.moveInPlace item).2 = some error → (r.moveInPlace item).1 = r

/-- Whatever operations are performed on a rule, it keeps its items and its confidence, its sides
stay apart, and moves fail as they did before and leave it alone. If any item was moved, the last
one is the consequent and all other items are the antecedent. -/
theorem stateOf_performAll (h : make antecedent consequent confidence = .ok r)
    (operations : List Operation) :
    StateOf antecedent consequent confidence (r.performAll operations) ∧
      ∀ item, (r.moved operations).getLast? = some item →
        (r.performAll operations).consequent = item ∧
          (r.performAll operations).antecedent = (antecedent.insert consequent).erase item := by
  obtain ⟨rfl, rfl, rfl, -⟩ := make_eq_ok_iff.mp h
  have hfollows := r.follows_performAll operations
  refine ⟨{
    nonempty := (r.performAll operations).antecedent_nonempty
    fresh := (r.performAll operations).consequent_fresh
    allItems_eq := hfollows.allItems_eq
    size_eq := ?_
    confidence_eq := hfollows.confidence_eq
    failed_iff := ?_
    eq_of_failed := fun _ _ => moveInPlace_eq_of_failed }, ?_⟩
  · rw [← size_allItems, hfollows.allItems_eq, size_allItems, size]
  · intro item error
    rw [moveInPlace_failed_iff, hfollows.allItems_eq, allItems]
  · intro item hlast
    have hconsequent : (r.performAll operations).consequent = item := by
      rw [hfollows.consequent_eq, hlast, Option.getD_some]
    refine ⟨hconsequent, ?_⟩
    rw [← erase_allItems, hfollows.allItems_eq, hconsequent, allItems]

/-- A rule about the scope of a health check. -/
def scopedCheck : Rule where
  antecedent := .ofList [
    Fact.text "Class" "annotatedWith" "Annotation_ApplicationScoped",
    Fact.text "Class" "implements" "Class_HealthCheck"]
  consequent := Fact.text "Class" "annotatedWith" "Annotation_Liveness"
  confidence := 0.75
  antecedent_nonempty := by decide +kernel
  consequent_fresh := by decide +kernel

theorem make_scopedCheck :
    make scopedCheck.antecedent scopedCheck.consequent scopedCheck.confidence = .ok scopedCheck :=
  make_eq_ok_iff.mpr ⟨rfl, rfl, rfl, rfl, rfl, by decide +kernel⟩

/-- The first and the fourth of the moves fail. -/
def scopedCheckOperations : List Operation := [
  .move (Fact.text "Class" "annotatedWith" "Annotation_Readiness"),
  .move (Fact.text "Class" "annotatedWith" "Annotation_ApplicationScoped"),
  .setVersion "v1",
  .move (Fact.text "Class" "implements" "Class_HealthCheck"),
  .move (Fact.text "Class" "implements" "Class_HealthCheck"),
  .setLabel .correct]

theorem stateOf_scopedCheck :
    make scopedCheck.antecedent scopedCheck.consequent scopedCheck.confidence = .ok scopedCheck ∧
      (scopedCheck.moved scopedCheckOperations).getLast? =
        some (Fact.text "Class" "implements" "Class_HealthCheck") ∧
      (scopedCheck.performAll scopedCheckOperations).antecedent = .ofList [
        Fact.text "Class" "annotatedWith" "Annotation_ApplicationScoped",
        Fact.text "Class" "annotatedWith" "Annotation_Liveness"] := by
  have hlast : (scopedCheck.moved scopedCheckOperations).getLast? =
      some (Fact.text "Class" "implements" "Class_HealthCheck") := by decide +kernel
  refine ⟨make_scopedCheck, hlast, ?_⟩
  rw [((stateOf_performAll make_scopedCheck scopedCheckOperations).2 _ hlast).2]
  decide +kernel

/-! ## Reachable rules -/

/-- A rule that was made and then changed by operations only. -/
def Reachable (r : Rule) : Prop :=
  ∃ antecedent consequent confidence made operations,
    make antecedent consequent confidence = .ok made ∧ r = made.performAll operations

theorem isNumber_of_isConfidence {x : Float} (h : isConfidence x = true) : Double.IsNumber x := by
  rw [isConfidence, Bool.or_eq_true, Bool.and_eq_true, decide_eq_true_eq] at h
  rcases h with hsynthesized | ⟨hzero, -⟩
  · exact (Double.beq_iff_place.mp hsynthesized).1
  · exact (Double.le_iff_place.mp hzero).2.1

theorem Reachable.isNumber (h : r.Reachable) : Double.IsNumber r.confidence := by
  obtain ⟨_, _, _, made, operations, hmake, rfl⟩ := h
  obtain ⟨-, -, rfl, -, -, hconfidence⟩ := make_eq_ok_iff.mp hmake
  rw [(made.follows_performAll operations).confidence_eq]
  exact isNumber_of_isConfidence hconfidence

end Rule

end UsageRules
