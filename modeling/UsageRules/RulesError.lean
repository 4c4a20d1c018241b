import UsageRules.Config
import UsageRules.Digest
import UsageRules.Files.Error

/-! What can go wrong with stored rules. -/

namespace UsageRules

/-- Why the review of a rule is not complete. -/
inductive ReviewGap where
  | unknownLabel
  | noDuplicateDecision
  deriving DecidableEq, Repr

def ReviewGap.text : ReviewGap → String
  | .unknownLabel => "label is still unknown"
  | .noDuplicateDecision => "no sameAs decision"

inductive RulesError where
  | io (path : String) (cause : FileError)
  | notRules (path : String)
  | missingCurrentVersion (version : String)
  | unlabeledBaseline (version : String) (count : Nat)
  | badVersionTag (tag : String)
  | incompleteReview (id : RuleId) (gap : ReviewGap)
  deriving DecidableEq

namespace RulesError

def message : RulesError → String
  | io path cause => "I/O error on " ++ path ++ ": " ++ cause.message
  | notRules path => "invalid rule file " ++ path
  | missingCurrentVersion version =>
    "no rule file for the current version " ++ version ++ "; mine rules first"
  | unlabeledBaseline version count =>
    String.ofList (Numeral.natural count) ++ " rule(s) of version " ++ version ++
      " are still labeled unknown; label them first"
  | badVersionTag tag => badVersionTagMessage tag
  | incompleteReview id gap =>
    "rule " ++ String.ofList (Numeral.integral id.toInt) ++ " is not fully reviewed: " ++ gap.text

def causes : RulesError → List String
  | io _ cause => [cause.message]
  | _ => []

end RulesError

end UsageRules
