import UsageRules.Json.Value

/-! Writing JSON text, on one line or with one element a line. -/

namespace UsageRules.Json

/-! ## String literals -/

def hexChar (n : Nat) : Char := Char.ofNat (if n < 10 then 48 + n else 87 + n)

/-- Quotes, backslashes and control characters are escaped, all else stands for itself. -/
def escapeChar (c : Char) : List Char :=
  match c with
  | '"' => ['\\', '"']
  | '\\' => ['\\', '\\']
  | '\x08' => ['\\', 'b']
  | '\x0c' => ['\\', 'f']
  | '\n' => ['\\', 'n']
  | '\r' => ['\\', 'r']
  | '\t' => ['\\', 't']
  | c =>
    if c < ' ' then ['\\', 'u', '0', '0', hexChar (c.toNat / 16), hexChar (c.toNat % 16)] else [c]

/-- A literal that stands for no text is written as half of a surrogate pair. -/
def writeLiteral : Literal → List Char
  | .text s => '"' :: s.toList.flatMap escapeChar ++ ['"']
  | .unpaired => ['"', '\\', 'u', 'd', '8', '0', '0', '"']

/-! ## Values -/

/-- A new line indented by two spaces a level, or nothing in a text of one line. -/
def lineBreak : Option Nat → List Char
  | none => []
  | some depth => '\n' :: List.replicate (2 * depth) ' '

def deeper (depth : Option Nat) : Option Nat := depth.map (· + 1)

/-- Between a name and its value. -/
def colon (depth : Option Nat) : List Char := if depth.isSome then [':', ' '] else [':']

mutual

def write (depth : Option Nat) : Json → List Char
  | .null => ['n', 'u', 'l', 'l']
  | .bool true => ['t', 'r', 'u', 'e']
  | .bool false => ['f', 'a', 'l', 's', 'e']
  | .number n => n.render
  | .string s => writeLiteral s
  | .array [] => ['[', ']']
  | .array (v :: l) =>
    '[' :: lineBreak (deeper depth) ++ write (deeper depth) v ++ writeElements (deeper depth) l ++
      lineBreak depth ++ [']']
  | .object [] => ['{', '}']
  | .object ((name, v) :: l) =>
    '{' :: lineBreak (deeper depth) ++ writeLiteral name ++ colon depth ++
      write (deeper depth) v ++ writeMembers (deeper depth) l ++ lineBreak depth ++ ['}']

def writeElements (depth : Option Nat) : List Json → List Char
  | [] => []
  | v :: l => ',' :: lineBreak depth ++ write depth v ++ writeElements depth l

def writeMembers (depth : Option Nat) : List (Literal × Json) → List Char
  | [] => []
  | (name, v) :: l =>
    ',' :: lineBreak depth ++ writeLiteral name ++ colon depth ++ write depth v ++
      writeMembers depth l

end

def compact (v : Json) : String := String.ofList (v.write none)

/-- The text with one element a line, indented by two spaces a level. -/
def pretty (v : Json) : String := String.ofList (v.write (some 0))

end UsageRules.Json
