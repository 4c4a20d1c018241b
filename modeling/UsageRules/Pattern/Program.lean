import UsageRules.Pattern.Basic

/-! Patterns as programs: instructions in numbered places, each of which names the places where to
go on. The program follows several places at once, and never one place twice without taking a
character, so that repetitions of nothing come to an end. -/

namespace UsageRules

inductive Instruction where
  | take (set : CharSet) (next : Nat)
  | check (b : Border) (next : Nat)
  /-- Goes on in two places, of which the first is preferred. -/
  | fork (first second : Nat)
  | done
  deriving DecidableEq, Repr

structure Program where
  code : Array Instruction
  start : Nat
  /-- The characters with which every match begins; none if a match can be empty. -/
  first : Option CharSet

namespace Program

/-- A step of writing a program, with the code as it is so far. -/
abbrev Writer := StateM (Array Instruction)

def emit (i : Instruction) : Writer Nat := fun code => (code.size, code.push i)

/-- Puts an instruction into a place that is there. -/
def patch (place : Nat) (i : Instruction) : Writer Unit :=
  modify fun code => code.setIfInBounds place i

/-- A choice between one more repetition and going on. -/
def choice (greedy : Bool) (more next : Nat) : Instruction :=
  if greedy then .fork more next else .fork next more

/-- Several copies of a pattern in a row. -/
def copies (body : Nat → Writer Nat) : Nat → Nat → Writer Nat
  | 0, next => return next
  | n + 1, next => do copies body n (← body next)

/-- At most as many copies of a pattern, each inside the one before. -/
def optionals (body : Nat → Writer Nat) (greedy : Bool) (next : Nat) : Nat → Writer Nat
  | 0 => return next
  | n + 1 => do emit (choice greedy (← body (← optionals body greedy next n)) next)

/-- A loop through a pattern: the place of the choice and the beginning of the pattern. -/
def loop (body : Nat → Writer Nat) (greedy : Bool) (next : Nat) : Writer (Nat × Nat) := do
  let place ← emit .done
  let first ← body place
  patch place (choice greedy first next)
  return (place, first)

/-- Writes the instructions of a pattern before the place `next`, and gives the place where they
begin. The loop of a pattern that can be empty is entered behind a choice of its own; otherwise its
first pass would count as a second one. -/
def write : Pattern → Nat → Writer Nat
  | .empty, next => return next
  | .char set, next => emit (.take set next)
  | .border b, next => emit (.check b next)
  | .seq p q, next => do write p (← write q next)
  | .alt p q, next => do
    let first ← write p next
    emit (.fork first (← write q next))
  | .rep p least none greedy, next => do
    let (place, first) ← loop (write p) greedy next
    if 0 < least then copies (write p) (least - 1) first
    else if p.canBeEmpty then emit (choice greedy first next)
    else return place
  | .rep p least (some most) greedy, next => do
    copies (write p) least (← optionals (write p) greedy next (most - least))
  | .group p, next => write p next

end Program

def Pattern.program (p : Pattern) : Program :=
  let (start, code) := (do Program.write p (← Program.emit .done) : Program.Writer Nat).run #[]
  { code, start, first := if p.canBeEmpty then none else some p.firstChars }

end UsageRules
