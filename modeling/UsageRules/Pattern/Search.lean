import UsageRules.Pattern.Parser
import UsageRules.Pattern.Program
import UsageRules.Text.Search

/-! The parts of a text that a pattern matches. A match begins as far left as possible; of the
matches that begin there the one is taken whose choices come first. A match is a part of the text
(`Program.occursIn_of_mem_allMatches`), so these patterns are a language of patterns. -/

namespace UsageRules

/-- A match in the making: where it began, and the place of the program it has come to. -/
structure Thread where
  start : Nat
  place : Nat
  deriving DecidableEq, Repr

namespace Program

/-- The places, from one of a list on, that wait for a character or are at the end, the last one
first, and the places that were passed. Places that were passed before are not followed again. -/
def follow (p : Program) (before after : Option Char) :
    Nat → List Nat → Array Bool → List Nat → Array Bool × List Nat
  | 0, _, passed, found => (passed, found)
  | _, [], passed, found => (passed, found)
  | fuel + 1, place :: rest, passed, found =>
    if passed[place]?.getD true then p.follow before after fuel rest passed found
    else
      let passed := passed.setIfInBounds place true
      match p.code[place]? with
      | some (.fork first second) =>
        p.follow before after fuel (first :: second :: rest) passed found
      | some (.check b next) =>
        let rest := if b.holds before after then next :: rest else rest
        p.follow before after fuel rest passed found
      | _ => p.follow before after fuel rest passed (place :: found)

/-- A match can begin before the character `after`. -/
def mayBegin (p : Program) (after : Option Char) : Bool := p.first.all fun set => after.any set.has

/-- Lets the threads, of which the first is preferred, go on as far as they can without taking a
character. Every place is followed for the first thread that comes to it. -/
def settle (p : Program) (before after : Option Char) (threads : List Thread) : List Thread :=
  let settleOne := fun (passed, settled) (t : Thread) =>
    let (passed, found) :=
      p.follow before after (2 * p.code.size + 2) [t.place] passed []
    (passed, found.map (Thread.mk t.start) ++ settled)
  if threads.isEmpty then []
  else (threads.foldl settleOne (Array.replicate p.code.size false, [])).2.reverse

/-- Lets threads take a character, if there is one, up to the first thread that is at the end:
those that have taken it, the last one first, and the beginning of the match. -/
def advance (p : Program) (after : Option Char) :
    List Thread → List Thread → List Thread × Option Nat
  | [], taken => (taken, none)
  | t :: ts, taken =>
    match p.code[t.place]? with
    | some .done => (taken, some t.start)
    | some (.take set next) =>
      p.advance after ts (if after.any set.has then ⟨t.start, next⟩ :: taken else taken)
    | _ => p.advance after ts taken

/-- The preferred match in what is left of a text: where it begins and where it ends. New matches
begin until one is found; it is given up for one of the threads that are preferred to it. -/
def searchFrom (p : Program) (before : Option Char) (position : Nat) (threads : List Thread)
    (best : Option (Nat × Nat)) (s : List Char) : Option (Nat × Nat) :=
  let threads :=
    if best.isNone && p.mayBegin s.head? then threads ++ [⟨position, p.start⟩] else threads
  let (taken, found) := p.advance s.head? (p.settle before s.head? threads) []
  let best := match found with
    | some start => some (start, position)
    | none => best
  match s with
  | [] => best
  | c :: s =>
    if taken.isEmpty && best.isSome then best
    else p.searchFrom (some c) (position + 1) taken.reverse best s

/-- The preferred match in what is left of a text: where it begins and where it ends. -/
def search (p : Program) (before : Option Char) (s : List Char) : Option (Nat × Nat) :=
  p.searchFrom before 0 [] none s

/-- The matches in what is left of a text, from left to right and without overlaps. An empty match
does not count directly at the end of another match, which is told by `afterMatch`. -/
def matchesFrom (p : Program) : Nat → Option Char → Bool → List Char → List (List Char)
  | 0, _, _, _ => []
  | fuel + 1, before, afterMatch, s =>
    match p.search before s with
    | none => []
    | some (start, stop) =>
      if stop = 0 && afterMatch then
        match s with
        | [] => []
        | c :: s => p.matchesFrom fuel (some c) false s
      else
        let last := if stop = 0 then before else s[stop - 1]?
        (s.drop start).take (stop - start) :: p.matchesFrom fuel last true (s.drop stop)

/-- The texts that a program matches in a text, from left to right and without overlaps. Between two
steps along the text there is at most one empty match, which bounds the steps. -/
def allMatches (p : Program) (text : String) : List String :=
  let s := text.toList
  (p.matchesFrom (2 * s.length + 2) none false s).map String.ofList

/-! ## Matches as parts of the text -/

variable {p : Program}

theorem isInfix_of_mem_matchesFrom {fuel : Nat} {before : Option Char} {afterMatch : Bool}
    {s part : List Char} (h : part ∈ p.matchesFrom fuel before afterMatch s) : part <:+: s := by
  induction fuel generalizing before afterMatch s with
  | zero =>
    rw [matchesFrom] at h
    cases h
  | succ fuel ih =>
    unfold matchesFrom at h
    split at h
    · cases h
    · rename_i start stop _
      split at h
      · -- An empty match directly behind another one is passed over.
        split at h
        · cases h
        · rename_i c s _
          exact (ih h).trans (List.suffix_cons c s).isInfix
      · rcases List.mem_cons.mp h with rfl | h
        · exact (List.take_prefix ..).isInfix.trans (List.drop_suffix ..).isInfix
        · exact (ih h).trans (List.drop_suffix ..).isInfix

theorem occursIn_of_mem_allMatches {text part : String} (h : part ∈ p.allMatches text) :
    Text.occursIn part text = true := by
  obtain ⟨chars, hchars, rfl⟩ := List.mem_map.mp h
  obtain ⟨before, after, heq⟩ := isInfix_of_mem_matchesFrom hchars
  rw [Text.occursIn, String.toList_ofList, Text.occurs_iff]
  exact ⟨before, after, heq.symm⟩

def matcher (p : Program) : Matcher where
  allMatches := p.allMatches
  occursIn_of_mem := occursIn_of_mem_allMatches

end Program

/-- The language that the program runs with. What holds of every run does not depend on it. -/
instance : PatternLanguage where
  matcher? text := (Pattern.parse? text).map (·.program.matcher)

end UsageRules
