import UsageRules.Text.CaseData

/-! Lower-casing of a text. Two characters need more than a partner: a capital I with a dot becomes
an i followed by a combining dot, and a capital sigma at the end of a word becomes a final sigma. -/

namespace UsageRules.Text

def isCased (c : Char) : Bool := casedRanges.has c

def isCaseIgnorable (c : Char) : Bool := caseIgnorableRanges.has c

/-- The run that has the code point `n`; the runs are in ascending order of their beginnings. -/
def runWith (n : Nat) : List CaseRun → Option CaseRun
  | [] => none
  | r :: rs =>
    if n < r.first then none
    else if n ≤ r.last && (n - r.first) % r.step == 0 then some r
    else runWith n rs

/-- The lower-case partner of a character that has one, and else the character. -/
def lowerChar (c : Char) : Char :=
  match runWith c.toNat caseRuns with
  | some r => Char.ofNat (c.toNat + r.shift).toNat
  | none => c

/-- The nearest character that is not passed over has a case. -/
def meetsCased (s : List Char) : Bool :=
  match s.dropWhile isCaseIgnorable with
  | [] => false
  | c :: _ => isCased c

/-- The lower case of the rest of a text, of which `before` are the characters in front, nearest
first. -/
def lowerAfter (before : List Char) : List Char → List Char
  | [] => []
  | c :: s =>
    let lowered :=
      if c = 'Σ' then [if meetsCased before && !meetsCased s then 'ς' else 'σ']
      else if c = 'İ' then ['i', '\u0307']
      else [lowerChar c]
    lowered ++ lowerAfter (c :: before) s

def lowercase (s : String) : String := String.ofList (lowerAfter [] s.toList)

end UsageRules.Text
