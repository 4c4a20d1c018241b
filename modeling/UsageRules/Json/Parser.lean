import UsageRules.Json.Value

/-! Reading JSON text. The grammar is strict: no comments, no trailing commas, no leading zeros, no
raw control characters. The fuel of the recursion is the length of the text, which bounds the depth
and the number of elements. -/

namespace UsageRules.Json

def isSpace (c : Char) : Bool := c = ' ' || c = '\t' || c = '\n' || c = '\r'

def skipSpace (s : List Char) : List Char := s.dropWhile isSpace

/-! ## String literals -/

/-- A part of a string literal: a character, or a surrogate written as an escape. -/
inductive Piece where
  | char (c : Char)
  | surrogate (n : Nat)

def hexDigit? (c : Char) : Option Nat :=
  if '0' ≤ c ∧ c ≤ '9' then some (c.toNat - 48)
  else if 'a' ≤ c ∧ c ≤ 'f' then some (c.toNat - 87)
  else if 'A' ≤ c ∧ c ≤ 'F' then some (c.toNat - 55)
  else none

/-- The piece written as four hexadecimal digits. -/
def hexPiece? (a b c d : Char) : Option Piece := do
  let n := (((← hexDigit? a) * 16 + (← hexDigit? b)) * 16 + (← hexDigit? c)) * 16 + (← hexDigit? d)
  if 0xD800 ≤ n ∧ n ≤ 0xDFFF then some (.surrogate n) else some (.char (Char.ofNat n))

/-- The character written as a backslash followed by `c`. -/
def escaped? (c : Char) : Option Char :=
  match c with
  | '"' => some '"'
  | '\\' => some '\\'
  | '/' => some '/'
  | 'b' => some '\x08'
  | 'f' => some '\x0c'
  | 'n' => some '\n'
  | 'r' => some '\r'
  | 't' => some '\t'
  | _ => none

/-- The pieces up to the closing quote, and what stands after it. -/
def pieces? : List Char → Option (List Piece × List Char)
  | [] => none
  | '"' :: s => some ([], s)
  | '\\' :: 'u' :: a :: b :: c :: d :: s => do
    let piece ← hexPiece? a b c d
    let (ps, rest) ← pieces? s
    some (piece :: ps, rest)
  | '\\' :: c :: s => do
    let c ← escaped? c
    let (ps, rest) ← pieces? s
    some (.char c :: ps, rest)
  | c :: s => if c < ' ' then none else do
    let (ps, rest) ← pieces? s
    some (.char c :: ps, rest)

/-- Joins each high surrogate with the low one after it. -/
def join? : List Piece → Option (List Char)
  | [] => some []
  | .char c :: ps => (join? ps).map (c :: ·)
  | .surrogate high :: .surrogate low :: ps =>
    if high < 0xDC00 ∧ 0xDC00 ≤ low then
      (join? ps).map (Char.ofNat (0x10000 + (high - 0xD800) * 0x400 + (low - 0xDC00)) :: ·)
    else none
  | .surrogate _ :: _ => none

/-- A string literal, its opening quote already read. -/
def literal? (s : List Char) : Option (Literal × List Char) := do
  let (ps, rest) ← pieces? s
  match join? ps with
  | some cs => some (.text (String.ofList cs), rest)
  | none => some (.unpaired, rest)

/-! ## Numbers -/

def isDigit (c : Char) : Bool := '0' ≤ c && c ≤ '9'

def digit (c : Char) : Fin 10 := Numeral.lastDigit (c.toNat - 48)

/-- The digits at the head of a text, and the rest. -/
def digits (s : List Char) : List (Fin 10) × List Char :=
  ((s.takeWhile isDigit).map digit, s.dropWhile isDigit)

def digitsValue (ds : List (Fin 10)) : Nat := ds.foldl (fun n d => 10 * n + d.val) 0

/-- The whole part: a zero, or digits of which the first is not a zero. -/
def whole? (s : List Char) : Option (Nat × List Char) :=
  match digits s with
  | ([], _) => none
  | (d :: ds, rest) => if d.val = 0 ∧ ds ≠ [] then none else some (digitsValue (d :: ds), rest)

/-- Digits after a point, if there is one. -/
def fraction? : List Char → Option (List (Fin 10) × List Char)
  | '.' :: s => if (digits s).1 = [] then none else some (digits s)
  | s => some ([], s)

def unsignedExponent? (negative : Bool) (s : List Char) : Option (Option Int × List Char) :=
  match digits s with
  | ([], _) => none
  | (ds, rest) => some (some (if negative then -(digitsValue ds : Int) else digitsValue ds), rest)

def exponent? : List Char → Option (Option Int × List Char)
  | c :: s =>
    if c = 'e' ∨ c = 'E' then
      match s with
      | '+' :: s => unsignedExponent? false s
      | '-' :: s => unsignedExponent? true s
      | s => unsignedExponent? false s
    else some (none, c :: s)
  | [] => some (none, [])

def unsignedNumber? (negative : Bool) (s : List Char) : Option (Json × List Char) := do
  let (whole, s) ← whole? s
  let (fraction, s) ← fraction? s
  let (exponent, s) ← exponent? s
  some (.number ⟨negative, whole, fraction, exponent⟩, s)

def number? : List Char → Option (Json × List Char)
  | '-' :: s => unsignedNumber? true s
  | s => unsignedNumber? false s

/-! ## Values -/

mutual

/-- A value at the head of a text, and the rest. -/
def value? : Nat → List Char → Option (Json × List Char)
  | 0, _ => none
  | fuel + 1, s =>
    match s with
    | 'n' :: 'u' :: 'l' :: 'l' :: s => some (.null, s)
    | 't' :: 'r' :: 'u' :: 'e' :: s => some (.bool true, s)
    | 'f' :: 'a' :: 'l' :: 's' :: 'e' :: s => some (.bool false, s)
    | '"' :: s => (literal? s).map fun (l, s) => (.string l, s)
    | '[' :: s =>
      match skipSpace s with
      | ']' :: s => some (.array [], s)
      | s => (elements? fuel s).map fun (l, s) => (.array l, s)
    | '{' :: s =>
      match skipSpace s with
      | '}' :: s => some (.object [], s)
      | s => (members? fuel s).map fun (l, s) => (.object l, s)
    | s => number? s

def elements? : Nat → List Char → Option (List Json × List Char)
  | 0, _ => none
  | fuel + 1, s => do
    let (v, s) ← value? fuel s
    match skipSpace s with
    | ',' :: s => do
      let (l, s) ← elements? fuel (skipSpace s)
      some (v :: l, s)
    | ']' :: s => some ([v], s)
    | _ => none

def members? : Nat → List Char → Option (List (Literal × Json) × List Char)
  | 0, _ => none
  | fuel + 1, s =>
    match s with
    | '"' :: s => do
      let (name, s) ← literal? s
      match skipSpace s with
      | ':' :: s => do
        let (v, s) ← value? fuel (skipSpace s)
        match skipSpace s with
        | ',' :: s => do
          let (l, s) ← members? fuel (skipSpace s)
          some ((name, v) :: l, s)
        | '}' :: s => some ([(name, v)], s)
        | _ => none
      | _ => none
    | _ => none

end

/-- The value that a whole text is, with white space around it allowed. -/
def parse? (text : String) : Option Json := do
  let s := text.toList
  let (v, rest) ← value? (s.length + 1) (skipSpace s)
  if (skipSpace rest).isEmpty then some v else none

end UsageRules.Json
