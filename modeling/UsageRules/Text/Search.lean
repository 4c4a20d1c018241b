/-! Where one text stands in another. All searches are by code point, on the list of characters.
Which patterns there are and what they match is left open: it is a `PatternLanguage`. -/

namespace UsageRules.Text

/-- Whether `needle` stands somewhere in the text. -/
def occurs (needle : List Char) : List Char → Bool
  | [] => needle.isEmpty
  | c :: s => needle.isPrefixOf (c :: s) || occurs needle s

def occursIn (needle text : String) : Bool := occurs needle.toList text.toList

def beginsWith (text start : String) : Bool := start.toList.isPrefixOf text.toList

/-- What stands before and after the first `sep`. -/
def splitAtFirst (sep : Char) : List Char → Option (List Char × List Char)
  | [] => none
  | c :: s => if c = sep then some ([], s) else (splitAtFirst sep s).map fun p => (c :: p.1, p.2)

/-- The parts between the occurrences of `sep`; one part if there is none. -/
def splitAll (sep : Char) : List Char → List (List Char)
  | [] => [[]]
  | c :: s =>
    if c = sep then [] :: splitAll sep s
    else match splitAll sep s with
      | [] => [[c]]
      | part :: parts => (c :: part) :: parts

theorem occurs_iff {needle text : List Char} :
    occurs needle text = true ↔ ∃ before after, text = before ++ needle ++ after := by
  induction text with
  | nil =>
    simp only [occurs, List.isEmpty_iff]
    constructor
    · rintro rfl
      exact ⟨[], [], rfl⟩
    · rintro ⟨before, after, h⟩
      have := List.append_eq_nil_iff.mp h.symm
      exact (List.append_eq_nil_iff.mp this.1).2
  | cons c s ih =>
    simp only [occurs, Bool.or_eq_true, List.isPrefixOf_iff_prefix, ih]
    constructor
    · rintro (⟨after, h⟩ | ⟨before, after, rfl⟩)
      · exact ⟨[], after, by simp [h]⟩
      · exact ⟨c :: before, after, rfl⟩
    · rintro ⟨before, after, h⟩
      cases before with
      | nil => exact .inl ⟨after, by simpa using h.symm⟩
      | cons b before =>
        simp only [List.cons_append, List.cons.injEq] at h
        exact .inr ⟨before, after, h.2⟩

/-- The part before the separator is the one without it. -/
theorem splitAtFirst_eq_some_iff {sep : Char} {s before after : List Char} :
    splitAtFirst sep s = some (before, after) ↔ s = before ++ sep :: after ∧ ¬sep ∈ before := by
  induction s generalizing before with
  | nil => simp [splitAtFirst]
  | cons c s ih =>
    by_cases hc : c = sep
    · cases before with
      | nil => simp [splitAtFirst, hc]
      | cons b before =>
        rw [splitAtFirst, if_pos hc]
        grind
    · cases before with
      | nil => simp [splitAtFirst, hc]
      | cons b before =>
        rw [splitAtFirst, if_neg hc, Option.map_eq_some_iff, Prod.exists]
        grind

end UsageRules.Text

namespace UsageRules

/-- What finds the matches of a pattern in texts. Every match is a part of its text. -/
structure Matcher where
  allMatches (text : String) : List String
  occursIn_of_mem {text part : String} (h : part ∈ allMatches text) :
    Text.occursIn part text = true

/-- Which texts are patterns, and what each of them matches. -/
class PatternLanguage where
  matcher? (pattern : String) : Option Matcher

end UsageRules
