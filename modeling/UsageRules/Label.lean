import UsageRules.Json.Reader

/-! The verdict that a reviewer gives a rule. -/

namespace UsageRules

inductive Label where
  | unknown
  | correct
  | partlyCorrect
  | bestPractice
  | notARule
  deriving DecidableEq, Repr, Inhabited

namespace Label

def all : List Label := [unknown, correct, partlyCorrect, bestPractice, notARule]

def rank : Label → Nat
  | unknown => 0
  | correct => 1
  | partlyCorrect => 2
  | bestPractice => 3
  | notARule => 4

instance : LT Label := ⟨fun a b => a.rank < b.rank⟩

instance : DecidableLT Label := fun a b => inferInstanceAs (Decidable (a.rank < b.rank))

instance : TotalOrder Label where
  irrefl a := Nat.lt_irrefl a.rank
  trans := Nat.lt_trans
  connected a b := by
    rcases Nat.lt_trichotomy a.rank b.rank with h | h | h
    · exact .inl h
    · refine .inr (.inl ?_)
      cases a <;> cases b <;> first | rfl | cases h
    · exact .inr (.inr h)

def text : Label → String
  | unknown => "unknown"
  | correct => "correct"
  | partlyCorrect => "part. correct"
  | bestPractice => "best practice"
  | notARule => "not a rule"

/-- The label with a written form; two labels have an older form besides. -/
def ofText? : String → Option Label
  | "unknown" => some unknown
  | "correct" => some correct
  | "part. correct" => some partlyCorrect
  | "partially correct" => some partlyCorrect
  | "best practice" => some bestPractice
  | "not a rule" => some notARule
  | "not a usage" => some notARule
  | _ => none

theorem ofText?_text (l : Label) : ofText? l.text = some l := by cases l <;> rfl

def isUnknown (l : Label) : Bool := l = unknown

/-- Counts towards precision. -/
def isCorrectOrPartly (l : Label) : Bool := l = correct || l = partlyCorrect

def toJson (l : Label) : Json := .ofString l.text

def ofJson : Json → Option Label := Json.asConstant ofText?

end Label

end UsageRules
