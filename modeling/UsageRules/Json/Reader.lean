import UsageRules.Json.Value
import UsageRules.SortedMap

/-! Typed readings of JSON values. A reading that does not succeed has no value; why it failed is
not told. -/

namespace UsageRules

namespace Numeral

/-- Written without a point and without an exponent. -/
def isInteger (n : Numeral) : Bool := n.fraction.isEmpty && n.exponent.isNone

/-- A natural number below `2 ^ 64`. -/
def natural? (n : Numeral) : Option Nat :=
  if n.isInteger && !n.negative && n.whole < UInt64.size then some n.whole else none

/-- A signed integer of 64 bits; minus zero is none. -/
def int64? (n : Numeral) : Option Int64 :=
  if n.isInteger then
    if n.negative then
      if 0 < n.whole ∧ n.whole ≤ pow2 63 then some (Int64.ofInt (-(n.whole : Int))) else none
    else if n.whole < pow2 63 then some (Int64.ofInt n.whole) else none
  else none

/-- Drops digits at the end until `2 ^ 64` is greater, and counts them. -/
def leading : Nat → Nat → Nat → Nat × Nat
  | 0, n, dropped => (n, dropped)
  | fuel + 1, n, dropped =>
    if n < UInt64.size then (n, dropped) else leading fuel (n / 10) (dropped + 1)

/-- Appends digits as long as `2 ^ 64` stays greater, and counts them. -/
def append (n : Nat) : List (Fin 10) → Nat × Nat
  | [] => (n, 0)
  | d :: ds =>
    if 10 * n + d.val < UInt64.size then
      let (m, count) := append (10 * n + d.val) ds
      (m, count + 1)
    else (n, 0)

/-- A power of ten as a double. -/
def powerOfTen (e : Nat) : Float := Float.ofScientific 1 false e

/-- Divides by `10 ^ e`, by `10 ^ 308` at a time; after three such steps nothing is left. -/
def divideDown : Nat → Float → Nat → Float
  | 0, x, _ => x
  | fuel + 1, x, e =>
    if e ≤ 308 then x / powerOfTen e
    else if x == 0 then x
    else divideDown fuel (x / powerOfTen 308) (e - 308)

/-- The double of a numeral: its significant digits, as many as 64 bits hold, and then one
multiplication or division by a power of ten. Digits of the fraction can still follow a whole part
that was cut short. Numerals beyond the greatest double have none. -/
def toFloat? (n : Numeral) : Option Float :=
  let (cut, dropped) := leading (n.whole.log2 + 1) n.whole 0
  let (significand, appended) := append cut n.fraction
  let e : Int := n.exponent.getD 0 + dropped - appended
  let x := significand.toUInt64.toFloat
  let magnitude? : Option Float :=
    if 0 ≤ e then
      if e ≤ 308 then
        let y := x * powerOfTen e.toNat
        if y.isInf then none else some y
      else if x == 0 then some x else none
    else some (divideDown 4 x (-e).toNat)
  magnitude?.map fun y => if n.negative then -y else y

end Numeral

namespace Json

def asString : Json → Option String
  | .string (.text s) => some s
  | _ => none

def asBool : Json → Option Bool
  | .bool b => some b
  | _ => none

def asNat : Json → Option Nat
  | .number n => n.natural?
  | _ => none

def asInt64 : Json → Option Int64
  | .number n => n.int64?
  | _ => none

def asFloat : Json → Option Float
  | .number n => n.toFloat?
  | _ => none

/-- An array of which every element can be read. -/
def asList {α : Type} (read : Json → Option α) : Json → Option (List α)
  | .array l => l.mapM read
  | _ => none

def asStrings : Json → Option (List String) := asList asString

def asStringSet (v : Json) : Option (SortedSet String) := v.asStrings.map SortedSet.ofList

/-- A value, or null for none. -/
def asOptional {α : Type} (read : Json → Option α) : Json → Option (Option α)
  | .null => some none
  | v => (read v).map some

/-- An object as a map, of which every value can be read; of members with one name the last
counts. -/
def asMap {α : Type} (read : Json → Option α) : Json → Option (SortedMap String α)
  | .object members => do
    let entries ← members.mapM fun (name, v) => do
      match name with
      | .text key => some (key, ← read v)
      | .unpaired => none
    some (SortedMap.ofList entries)
  | _ => none

/-- A constant of an enumeration: its name, or an object with the name as its only member and the
value null. -/
def asConstant {α : Type} (named : String → Option α) : Json → Option α
  | .string (.text name) => named name
  | .object [(.text name, .null)] => named name
  | _ => none

/-! ## Records -/

def membersNamed (name : String) (members : List (Literal × Json)) : List Json :=
  (members.filter (·.1 = .text name)).map Prod.snd

/-- The fields of a record in the order of `names`, each absent or present: from an object, in
which other members are ignored and a field must not be repeated, or from an array, in which fields
at the end may be left out. -/
def asRecord (names : List String) : Json → Option (List (Option Json))
  | .object members =>
    if members.any (·.1 = .unpaired) then none
    else names.mapM fun name =>
      match membersNamed name members with
      | [] => some none
      | [v] => some (some v)
      | _ => none
  | .array elements =>
    if names.length < elements.length then none
    else some ((List.range names.length).map (elements[·]?))
  | _ => none

/-- A field with a default value for when it is absent. -/
def orDefault {α : Type} (read : Json → Option α) (default : α) : Option Json → Option α
  | none => some default
  | some v => read v

end Json

end UsageRules
