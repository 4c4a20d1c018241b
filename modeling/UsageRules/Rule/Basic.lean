import UsageRules.Decimal.Style
import UsageRules.Digest
import UsageRules.Label

/-! Association rules: if a declaration has all items of the antecedent, it should have the
consequent. A rule has a non-empty antecedent without its consequent, and no operation can change
that. -/

namespace UsageRules

inductive RuleError where
  | consequentInAntecedent (consequent : String)
  | emptyAntecedent
  | confidenceOutOfRange (confidence : Float)
  | alreadyConsequent (item : String)
  | notInAntecedent (item : String)
  | sizeMismatch (itemSet antecedent : Nat)

def RuleError.message : RuleError → String
  | consequentInAntecedent consequent =>
    "consequent `" ++ consequent ++ "` is also in the antecedent"
  | emptyAntecedent => "a rule needs a non-empty antecedent"
  | confidenceOutOfRange confidence =>
    "confidence " ++ NumberStyle.messageText confidence ++
      " is neither in [0, 1] nor the synthesized sentinel"
  | alreadyConsequent item => "`" ++ item ++ "` is already the consequent"
  | notInAntecedent item => "`" ++ item ++ "` is not in the antecedent"
  | sizeMismatch itemSet antecedent =>
    "rule for itemset of " ++ String.ofList (Numeral.natural itemSet) ++ " items has " ++
      String.ofList (Numeral.natural antecedent) ++ " antecedent items"

/-- The confidence of a rule that was not counted but made up. -/
def synthesizedConfidence : Float := -1.0

/-- A confidence is a share, or that of a synthesized rule. -/
def isConfidence (x : Float) : Bool := x == synthesizedConfidence || (0.0 ≤ x && x ≤ 1.0)

/-- An association rule with a single consequent. -/
structure Rule where
  antecedent : ItemSet
  consequent : String
  confidence : Float
  version : String := ""
  label : Label := .unknown
  antecedent_nonempty : antecedent.isEmpty = false
  consequent_fresh : ¬consequent ∈ antecedent

namespace Rule

def make (antecedent : ItemSet) (consequent : String) (confidence : Float) :
    Except RuleError Rule :=
  if h : antecedent.isEmpty = false then
    if h' : consequent ∈ antecedent then .error (.consequentInAntecedent consequent)
    else if isConfidence confidence then
      .ok {
        antecedent, consequent, confidence
        antecedent_nonempty := h
        consequent_fresh := h' }
    else .error (.confidenceOutOfRange confidence)
  else .error .emptyAntecedent

def isSynthesized (r : Rule) : Bool := r.confidence == synthesizedConfidence

def allItems (r : Rule) : ItemSet := r.antecedent.insert r.consequent

def size (r : Rule) : Nat := r.antecedent.size + 1

def id (r : Rule) : RuleId := contentId r.antecedent (.singleton r.consequent)

/-- The text of a rule, with three places of its confidence. -/
def text (r : Rule) : String :=
  "[" ++ ", ".intercalate r.antecedent.toList ++ "] => [" ++ r.consequent ++ "] (confidence " ++
    fixedPlaces 3 r.confidence ++ ")"

theorem isEmpty_insert (s : ItemSet) (item : String) : (s.insert item).isEmpty = false := by
  have h : item ∈ s.insert item := SortedSet.mem_insert.mpr (.inl rfl)
  cases hl : (s.insert item).toList with
  | nil => exact absurd (hl ▸ SortedSet.mem_toList.mpr h) List.not_mem_nil
  | cons a l => simp [SortedSet.isEmpty, hl]

/-! ## Operations -/

/-- Takes an item out of the antecedent and makes it the consequent; the old consequent joins the
antecedent. The rule is changed in place: the error of a failing move comes with what is left of the
rule. -/
def moveInPlace (r : Rule) (item : String) : Rule × Option RuleError :=
  if h : r.consequent = item then (r, some (.alreadyConsequent item))
  else if hmem : item ∈ r.antecedent then
    ({ r with
      antecedent := (r.antecedent.erase item).insert r.consequent
      consequent := item
      antecedent_nonempty := isEmpty_insert ..
      consequent_fresh := by simp [Ne.symm h] }, none)
  else
    ({ r with
      antecedent := r.antecedent.erase item
      antecedent_nonempty := by rw [SortedSet.erase_of_not_mem hmem, r.antecedent_nonempty]
      consequent_fresh := by simp [r.consequent_fresh] },
      some (.notInAntecedent item))

/-- The rule with an item moved, or why it cannot be moved. -/
def moveToConsequent (r : Rule) (item : String) : Except RuleError Rule :=
  match r.moveInPlace item with
  | (moved, none) => .ok moved
  | (_, some error) => .error error

/-- What can be done to a rule. -/
inductive Operation where
  | move (item : String)
  | setVersion (version : String)
  | setLabel (label : Label)

/-- The rule after an operation, and the error if it fails. -/
def perform (r : Rule) : Operation → Rule × Option RuleError
  | .move item => r.moveInPlace item
  | .setVersion version => ({ r with version }, none)
  | .setLabel label => ({ r with label }, none)

/-- The rule after a sequence of operations, of which any may fail. -/
def performAll (r : Rule) (operations : List Operation) : Rule :=
  operations.foldl (fun r operation => (r.perform operation).1) r

end Rule

end UsageRules
