import UsageRules.Pattern.CharSet

/-! Patterns of texts. -/

namespace UsageRules

/-- A condition on the characters before and after a place in a text. -/
inductive Border where
  | textStart
  | textEnd
  /-- A word begins or ends. -/
  | wordBorder
  | noWordBorder
  deriving DecidableEq, Repr

namespace Border

def inWord (c : Option Char) : Bool := c.any Text.isWordChar

def holds (before after : Option Char) : Border → Bool
  | textStart => before.isNone
  | textEnd => after.isNone
  | wordBorder => inWord before != inWord after
  | noWordBorder => inWord before == inWord after

end Border

inductive Pattern where
  | empty
  | char (set : CharSet)
  | border (b : Border)
  | seq (p q : Pattern)
  /-- Alternatives, of which the first is preferred. -/
  | alt (p q : Pattern)
  /-- At least `least` and at most `most` repetitions; a greedy repetition prefers more. -/
  | rep (p : Pattern) (least : Nat) (most : Option Nat) (greedy : Bool)
  /-- A pattern in parentheses. Groups are told apart by their places, so no two are the same. -/
  | group (p : Pattern)
  deriving DecidableEq, Repr

namespace Pattern

def canBeEmpty : Pattern → Bool
  | empty => true
  | char _ => false
  | border _ => true
  | seq p q => p.canBeEmpty && q.canBeEmpty
  | alt p q => p.canBeEmpty || q.canBeEmpty
  | rep p least _ _ => least = 0 || p.canBeEmpty
  | group p => p.canBeEmpty

/-- The characters with which a match that is not empty can begin. -/
def firstChars : Pattern → CharSet
  | empty => .none
  | char set => set
  | border _ => .none
  | seq p q => if p.canBeEmpty then .union p.firstChars q.firstChars else p.firstChars
  | alt p q => .union p.firstChars q.firstChars
  | rep p _ _ _ => p.firstChars
  | group p => p.firstChars

/-- The pattern matches nothing but the empty text. -/
def isEmptyOnly : Pattern → Bool
  | empty => true
  | char _ => false
  | border _ => true
  | seq p q => p.isEmptyOnly && q.isEmptyOnly
  | alt p q => p.isEmptyOnly && q.isEmptyOnly
  | rep p _ most _ => most = some 0 || p.isEmptyOnly
  | group p => p.isEmptyOnly

def hasGroup : Pattern → Bool
  | empty => false
  | char _ => false
  | border _ => false
  | seq p q => p.hasGroup || q.hasGroup
  | alt p q => p.hasGroup || q.hasGroup
  | rep p _ _ _ => p.hasGroup
  | group _ => true

/-! ## Putting patterns together -/

def parts : Pattern → List Pattern
  | empty => []
  | seq p q => p.parts ++ q.parts
  | p => [p]

def branches : Pattern → List Pattern
  | alt p q => p.branches ++ q.branches
  | p => [p]

def sequence : List Pattern → Pattern
  | [] => empty
  | [p] => p
  | p :: ps => seq p (sequence ps)

/-- One pattern or another; the first is preferred. -/
def oneOf : List Pattern → Pattern
  | [] => char .none
  | [p] => p
  | p :: ps => alt p (oneOf ps)

/-- How many parts two sequences have in common at their beginnings. -/
def commonStart : List Pattern → List Pattern → Nat
  | p :: ps, q :: qs => if p = q && !p.hasGroup then commonStart ps qs + 1 else 0
  | _, _ => 0

/-- Alternatives. If all are sequences of several parts and begin alike, they share the beginning:
what it takes is settled before one of them is preferred. -/
def alternatives (ps : List Pattern) : Pattern :=
  let sequences := (ps.flatMap branches).map parts
  match sequences with
  | first :: (others@(_ :: _)) =>
    let shared :=
      if sequences.all (1 < ·.length) then
        others.foldl (fun n ps => min n (commonStart first ps)) first.length
      else 0
    sequence (first.take shared ++
      [oneOf (sequences.map fun ps => sequence (ps.drop shared))])
  | _ => sequence sequences.flatten

/-- A repetition. What takes nothing need not be repeated more than once. -/
def repetition (p : Pattern) (least : Nat) (most : Option Nat) (greedy : Bool) : Pattern :=
  let (least, most) := if p.isEmptyOnly then (min least 1, some ((most.map (min · 1)).getD 1))
    else (least, most)
  if most = some 0 then empty
  else if least = 1 ∧ most = some 1 then p
  else rep p least most greedy

/-! ## Sizes -/

/-- The bytes that a program of the pattern takes, as a measure of what is too large. -/
def weight : Pattern → Nat
  | empty => 0
  | char set => set.weight
  | border _ => 32
  | seq p q => p.weight + q.weight
  | alt p q => p.weight + q.weight + 40
  | rep p least none _ => max least 1 * p.weight + 40
  | rep p least (some most) _ => most * p.weight + (most - least) * 40
  | group p => p.weight + 64

/-- Patterns whose programs would take more than ten mebibytes are not accepted. -/
def isTooLarge (p : Pattern) : Bool := 10485760 < p.weight

end Pattern

end UsageRules
