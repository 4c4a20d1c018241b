import UsageRules.Decimal.Style

/-! JSON values as documents hold them: members in their order and with repeats, numbers as they are
written. -/

namespace UsageRules

/-- What a string literal stands for: a text, or nothing if an escape leaves half of a surrogate
pair alone. -/
inductive Literal where
  | text (s : String)
  | unpaired
  deriving DecidableEq

inductive Json where
  | null
  | bool (b : Bool)
  | number (n : Numeral)
  | string (s : Literal)
  | array (elements : List Json)
  | object (members : List (Literal × Json))

namespace Json

/-! ## Making values -/

def ofString (s : String) : Json := .string (.text s)

def ofStrings (l : List String) : Json := .array (l.map ofString)

def ofNat (n : Nat) : Json := .number (.ofNat n)

def ofInt (i : Int) : Json := .number (.ofInt i)

/-- A double with the fewest digits; infinities and what is not a number become null. -/
def ofFloat (x : Float) : Json :=
  match DoubleValue.of x with
  | .finite negative magnitude => .number (NumberStyle.document.numeral negative magnitude)
  | _ => .null

def ofFields (l : List (String × Json)) : Json := .object (l.map fun e => (.text e.1, e.2))

end Json

end UsageRules
