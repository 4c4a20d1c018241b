import UsageRules.Text.Search

/-! The order of version tags: `v0.0.10` comes after `v0.0.9`. -/

namespace UsageRules

namespace Version

def isAsciiDigit (c : Char) : Bool := '0' ≤ c && c ≤ '9'

/-- Takes a digit after those of `n`; a number that does not fit into 64 bits is left as it is. -/
def addDigit (n : Nat) (d : Char) : Nat :=
  if n < UInt64.size then 10 * n + (d.toNat - 48) else n

/-- The number of a part of a tag: digits, after at most one plus sign, below `2 ^ 64`. What is no
such number counts as zero. -/
def partNumber (part : List Char) : Nat :=
  let ds := match part with
    | '+' :: ds => ds
    | ds => ds
  if ds.all isAsciiDigit then
    let n := ds.foldl addDigit 0
    if n < UInt64.size then n else 0
  else 0

/-- The numbers between the points of a tag, without the small v's at its start. -/
def sortKey (tag : String) : List Nat :=
  (Text.splitAll '.' (tag.toList.dropWhile (· = 'v'))).map partNumber

/-- Earlier numbers come first, and of equal numbers the earlier text. -/
def notAfter (a b : String) : Bool :=
  sortKey a < sortKey b || (sortKey a = sortKey b && a ≤ b)

end Version

end UsageRules
