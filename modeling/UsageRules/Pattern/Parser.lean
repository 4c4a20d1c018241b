import UsageRules.Pattern.Basic

/-! Reading patterns: literal characters, escapes, sets in brackets, groups, alternatives,
repetitions, and conditions. Flags, names of groups, classes of characters by their Unicode
properties, and the beginnings and the ends of words as conditions of their own are no part of these
patterns. -/

namespace UsageRules.Pattern

/-- What is read, with the depth to which its spelling is nested: every group, repetition, sequence
of several parts, choice and set in brackets is one level. -/
structure Nested (α : Type) where
  value : α
  depth : Nat

namespace Nested

variable {α : Type}

def flat (value : α) : Nested α := ⟨value, 0⟩

/-- What is made of other things, on the level above them. -/
def above {β : Type} (make : List α → β) (inner : List (Nested α)) : Nested β :=
  ⟨make (inner.map value), inner.foldl (fun n p => max n p.depth) 0 + 1⟩

/-- What is made of other things, on a level of its own unless there is just one of them or none. -/
def joined {β : Type} (make : List α → β) (inner : List (Nested α)) : Nested β :=
  match inner with
  | [] => ⟨make [], 0⟩
  | [p] => ⟨make [p.value], p.depth⟩
  | inner => above make inner

end Nested

/-- The greatest depth of a spelling. -/
def maxDepth : Nat := 250

/-- The characters that mean something by themselves. -/
def isSpecial (c : Char) : Bool := c ∈ "\\.+*?()|[\x7b^$".toList

/-! ## Escapes -/

def hexDigit? (c : Char) : Option Nat :=
  if '0' ≤ c && c ≤ '9' then some (c.toNat - 48)
  else if 'a' ≤ c && c ≤ 'f' then some (c.toNat - 87)
  else if 'A' ≤ c && c ≤ 'F' then some (c.toNat - 55)
  else none

def codePoint? (digits : List Char) : Option Char := do
  if digits.isEmpty then none
  let n := (← digits.mapM hexDigit?).foldl (fun n d => 16 * n + d) 0
  if n.isValidChar then some (Char.ofNat n) else none

/-- A character by its number: so many digits, or any in braces. -/
def numbered? (places : Nat) : List Char → Option (Char × List Char)
  | '\x7b' :: s => do
    match s.dropWhile (· ≠ '\x7d') with
    | _ :: rest => some (← codePoint? (s.takeWhile (· ≠ '\x7d')), rest)
    | [] => none
  | s =>
    let digits := s.take places
    if digits.length < places then none else do some (← codePoint? digits, s.drop places)

/-- What a backslash stands for with what follows it: a class, a control character, a character by
its number, or a punctuation character itself. -/
def escape? : List Char → Option (CharSet × List Char)
  | [] => none
  | 'w' :: s => some (.word, s)
  | 'W' :: s => some (.except .word, s)
  | 'd' :: s => some (.digit, s)
  | 'D' :: s => some (.except .digit, s)
  | 's' :: s => some (.blank, s)
  | 'S' :: s => some (.except .blank, s)
  | 'n' :: s => some (.single '\n', s)
  | 't' :: s => some (.single '\t', s)
  | 'r' :: s => some (.single '\r', s)
  | 'f' :: s => some (.single '\x0c', s)
  | 'v' :: s => some (.single '\x0b', s)
  | 'a' :: s => some (.single '\x07', s)
  | 'x' :: s => (numbered? 2 s).map fun (c, s) => (.single c, s)
  | 'u' :: s => (numbered? 4 s).map fun (c, s) => (.single c, s)
  | 'U' :: s => (numbered? 8 s).map fun (c, s) => (.single c, s)
  | c :: s =>
    if c.toNat < 128 ∧ ¬c.isAlphanum ∧ c ≠ '<' ∧ c ≠ '>' then some (.single c, s) else none

/-! ## Sets in brackets -/

/-- The sets of ASCII characters that have names. -/
def namedSets : List (String × CharSet) :=
  let digits := CharSet.range '0' '9'
  let lower := CharSet.range 'a' 'z'
  let upper := CharSet.range 'A' 'Z'
  let letters := CharSet.union upper lower
  let punctuation := CharSet.unionAll [.range '!' '/', .range ':' '@', .range '[' (Char.ofNat 96),
    .range '\x7b' '~']
  [("alnum", .union digits letters), ("alpha", letters), ("ascii", .range '\x00' '\x7f'),
    ("blank", .union (.single '\t') (.single ' ')),
    ("cntrl", .union (.range '\x00' '\x1f') (.single '\x7f')), ("digit", digits),
    ("graph", .range '!' '~'), ("lower", lower), ("print", .range ' ' '~'), ("punct", punctuation),
    ("space", .union (.range '\t' '\r') (.single ' ')), ("upper", upper),
    ("word", .unionAll [digits, letters, .single '_']),
    ("xdigit", .unionAll [digits, .range 'A' 'F', .range 'a' 'f'])]

/-- A set by its name between colons and before a closing bracket; a circumflex before the name
takes the other characters. -/
def named? : List Char → Option (CharSet × List Char)
  | ':' :: s => do
    let (negated, s) := match s with
      | '^' :: s => (true, s)
      | s => (false, s)
    match s.dropWhile (· ≠ ':') with
    | ':' :: ']' :: rest =>
      let set ← (namedSets.find? (·.1 = String.ofList (s.takeWhile (· ≠ ':')))).map Prod.snd
      some (if negated then .except set else set, rest)
    | _ => none
  | _ => none

/-- One member of a set, as a character or as a class. -/
def member? : List Char → Option (CharSet × List Char)
  | '\\' :: s => escape? s
  | c :: s => some (.single c, s)
  | [] => none

/-- A member of a set, or a range of characters between two members. -/
def range? (s : List Char) : Option (CharSet × List Char) := do
  let (first, s) ← member? s
  match s with
  | '-' :: ']' :: _ => some (first, s)
  | '-' :: '-' :: _ => some (first, s)
  | '-' :: s =>
    match first, ← member? s with
    | .range a a', (.range b b', s) =>
      if a = a' ∧ b = b' ∧ a ≤ b then some (.range a b, s) else none
    | _, _ => none
  | s => some (first, s)

def unionOf (members : List (Nested CharSet)) : Nested CharSet :=
  .joined CharSet.unionAll members.reverse

/-- The members of a set so far, the last one first, and what they are to be joined to: a set that
stands before an operator. -/
structure OpenSet where
  members : List (Nested CharSet) := []
  before : Option ((CharSet → CharSet → CharSet) × Nested CharSet) := none

namespace OpenSet

def add (o : OpenSet) (member : Nested CharSet) : OpenSet :=
  { o with members := member :: o.members }

def close (o : OpenSet) : Nested CharSet :=
  let right := unionOf o.members
  match o.before with
  | none => right
  | some (join, left) => ⟨join left.value right.value, max left.depth right.depth + 1⟩

def join (o : OpenSet) (f : CharSet → CharSet → CharSet) : OpenSet := ⟨[], some (f, o.close)⟩

end OpenSet

mutual

def members? : Nat → OpenSet → List Char → Option (Nested CharSet × List Char)
  | 0, _, _ => none
  | fuel + 1, o, s =>
    match s with
    | ']' :: s => some (o.close, s)
    | '&' :: '&' :: s => members? fuel (o.join .inter) s
    | '-' :: '-' :: s => members? fuel (o.join .minus) s
    | '~' :: '~' :: s => members? fuel (o.join .apart) s
    | '[' :: s => do
      match named? s with
      | some (set, s) => members? fuel (o.add (.flat set)) s
      | none =>
        let (set, s) ← set? fuel s
        members? fuel (o.add set) s
    | s => do
      let (set, s) ← range? s
      members? fuel (o.add (.flat set)) s

/-- A set after its opening bracket. Hyphens at its start, or a closing bracket there, stand for
themselves. -/
def set? : Nat → List Char → Option (Nested CharSet × List Char)
  | 0, _ => none
  | fuel + 1, s => do
    let (negated, s) := match s with
      | '^' :: s => (true, s)
      | s => (false, s)
    let hyphens := s.takeWhile (· = '-')
    let s := s.dropWhile (· = '-')
    let (start, s) := match hyphens, s with
      | [], ']' :: s => ([']'], s)
      | _, s => (hyphens, s)
    let (set, s) ← members? fuel { members := start.map (.flat <| .single ·) } s
    some (⟨if negated then .except set.value else set.value, set.depth + 1⟩, s)

end

/-! ## Repetitions -/

/-- Digits at the head of a text as a number, with white space around them. -/
def count? (s : List Char) : Option (Nat × List Char) :=
  let s := Text.trimStart s
  match s.takeWhile Char.isDigit with
  | [] => none
  | ds =>
    let n := ds.foldl (fun n d => 10 * n + (d.toNat - 48)) 0
    if n < UInt32.size then some (n, Text.trimStart (s.dropWhile Char.isDigit)) else none

def bounds? (s : List Char) : Option ((Nat × Option Nat) × List Char) := do
  let (least, s) ← count? s
  match s with
  | '\x7d' :: s => some ((least, some least), s)
  | ',' :: '\x7d' :: s => some ((least, none), s)
  | ',' :: s => do
    let (most, s) ← count? s
    match s with
    | '\x7d' :: s => if least ≤ most then some ((least, some most), s) else none
    | _ => none
  | _ => none

/-- The bounds of the repetition at the head of a text; none if there is no repetition. -/
def repetition? : List Char → Option (Option ((Nat × Option Nat) × List Char))
  | '*' :: s => some (some ((0, none), s))
  | '+' :: s => some (some ((1, none), s))
  | '?' :: s => some (some ((0, some 1), s))
  | '\x7b' :: s => (bounds? s).map some
  | _ => some none

/-- A pattern with the repetitions that follow it; a question mark after a repetition makes it
reluctant. What is nested too deeply is given up at once. -/
def repeated? : Nat → Nested Pattern → List Char → Option (Nested Pattern × List Char)
  | 0, _, _ => none
  | fuel + 1, p, s => do
    match ← repetition? s with
    | none => some (p, s)
    | some ((least, most), s) =>
      if maxDepth ≤ p.depth then none
      else
        let (greedy, s) := match s with
          | '?' :: s => (false, s)
          | s => (true, s)
        repeated? fuel ⟨.repetition p.value least most greedy, p.depth + 1⟩ s

/-! ## Patterns -/

def inSequence (ps : List (Nested Pattern)) : Nested Pattern :=
  .joined (fun ps => .sequence (ps.flatMap parts)) ps

def inChoice (ps : List (Nested Pattern)) : Nested Pattern := .joined alternatives ps

mutual

def alternatives? : Nat → List Char → Option (List (Nested Pattern) × List Char)
  | 0, _ => none
  | fuel + 1, s => do
    let (ps, s) ← sequence? fuel s
    match s with
    | '|' :: s => do
      let (qs, s) ← alternatives? fuel s
      some (inSequence ps :: qs, s)
    | s => some ([inSequence ps], s)

def sequence? : Nat → List Char → Option (List (Nested Pattern) × List Char)
  | 0, _ => none
  | fuel + 1, s =>
    match s with
    | [] => some ([], [])
    | '|' :: s => some ([], '|' :: s)
    | ')' :: s => some ([], ')' :: s)
    | s => do
      let (p, s) ← atom? fuel s
      let (p, s) ← repeated? fuel p s
      let (ps, s) ← sequence? fuel s
      some (p :: ps, s)

def atom? : Nat → List Char → Option (Nested Pattern × List Char)
  | 0, _ => none
  | fuel + 1, s =>
    match s with
    | '(' :: '?' :: ':' :: s => inside? fuel s
    | '(' :: '?' :: _ => none
    | '(' :: s => (inside? fuel s).map fun (p, s) => (⟨.group p.value, p.depth⟩, s)
    | '[' :: s => (set? fuel s).map fun (set, s) => (⟨.char set.value, set.depth⟩, s)
    | '.' :: s => some (.flat (.char (.except (.single '\n'))), s)
    | '^' :: s => some (.flat (.border .textStart), s)
    | '$' :: s => some (.flat (.border .textEnd), s)
    | '\\' :: 'A' :: s => some (.flat (.border .textStart), s)
    | '\\' :: 'z' :: s => some (.flat (.border .textEnd), s)
    | '\\' :: 'b' :: s => some (.flat (.border .wordBorder), s)
    | '\\' :: 'B' :: s => some (.flat (.border .noWordBorder), s)
    | '\\' :: s => (escape? s).map fun (set, s) => (.flat (.char set), s)
    | c :: s => if isSpecial c then none else some (.flat (.char (.single c)), s)
    | [] => none

def inside? : Nat → List Char → Option (Nested Pattern × List Char)
  | 0, _ => none
  | fuel + 1, s => do
    match ← alternatives? fuel s with
    | (ps, ')' :: s) =>
      let p := inChoice ps
      some (⟨p.value, p.depth + 1⟩, s)
    | _ => none

end

/-- The pattern that a text spells, unless it is nested too deeply or too large. There is none for a
text with flags such as `(?i)`, a named group `(?P<n>x)` or `(?<n>x)`, a class `\p` or `\P`, or one
of the conditions `\b{start}`, `\b{end}`, `\<` and `\>`: other languages of patterns have these.
Every character is reached by at most four calls that are nested in one another. -/
def parse? (text : String) : Option Pattern := do
  let s := text.toList
  match ← alternatives? (4 * s.length + 4) s with
  | (ps, []) =>
    let p := inChoice ps
    if maxDepth < p.depth || p.value.isTooLarge then none else some p.value
  | _ => none

end UsageRules.Pattern
