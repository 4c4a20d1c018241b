import UsageRules.Text.CharClass

/-! Sets of characters. -/

namespace UsageRules

inductive CharSet where
  | none
  | range (first last : Char)
  | word
  | digit
  | blank
  | union (s t : CharSet)
  | inter (s t : CharSet)
  /-- The characters of the first set that are not in the second. -/
  | minus (s t : CharSet)
  /-- The characters of one set that are not in the other. -/
  | apart (s t : CharSet)
  | except (s : CharSet)
  deriving DecidableEq, Repr

namespace CharSet

def single (c : Char) : CharSet := range c c

def has (c : Char) : CharSet → Bool
  | none => false
  | range first last => first ≤ c && c ≤ last
  | word => Text.isWordChar c
  | digit => Text.isDecimalDigit c
  | blank => Text.isBlank c
  | union s t => s.has c || t.has c
  | inter s t => s.has c && t.has c
  | minus s t => s.has c && !t.has c
  | apart s t => s.has c != t.has c
  | except s => !s.has c

def unionAll (sets : List CharSet) : CharSet := sets.foldr union none

/-- The bytes that a program takes for the set. Programs read encoded characters byte by byte, so a
set takes more the more ranges of characters it has. -/
def weight : CharSet → Nat
  | none => 32
  | range first last => if first = last then 32 * first.utf8Size else 72 * last.utf8Size
  | word => 49836
  | digit => 5116
  | blank => 680
  | except word => 46420
  | except digit => 12720
  | except blank => 1924
  | except s => s.weight + 928
  | union s t => s.weight + t.weight
  | inter s t => s.weight + t.weight
  | minus s t => s.weight + t.weight
  | apart s t => s.weight + t.weight

end CharSet

end UsageRules
