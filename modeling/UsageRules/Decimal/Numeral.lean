/-! Decimal numerals as they are written: a sign, whole part, fraction digits, exponent. -/

namespace UsageRules

/-! ## Powers of the bases of numerals and of doubles -/

def pow2 (n : Nat) : Nat := Nat.pow 2 n

def pow10 (n : Nat) : Nat := Nat.pow 10 n

/-! ## Numerals -/

/-- A decimal numeral as written. There is a point only if there are fraction digits. -/
structure Numeral where
  negative : Bool
  whole : Nat
  fraction : List (Fin 10)
  exponent : Option Int
  deriving DecidableEq, Repr

namespace Numeral

def digitChar (d : Fin 10) : Char := Char.ofNat (48 + d.val)

def natural (n : Nat) : List Char := Nat.toDigits 10 n

/-- An integer, with a minus sign if it is negative. -/
def integral : Int → List Char
  | .ofNat n => natural n
  | .negSucc n => '-' :: natural (n + 1)

def ofNat (n : Nat) : Numeral := ⟨false, n, [], none⟩

def ofInt (i : Int) : Numeral := ⟨i < 0, i.natAbs, [], none⟩

/-- The numeral with a lower-case mark before the exponent. -/
def render (n : Numeral) : List Char :=
  (if n.negative then ['-'] else []) ++ natural n.whole ++
    (if n.fraction.isEmpty then [] else '.' :: n.fraction.map digitChar) ++
    (match n.exponent with
      | none => []
      | some e => 'e' :: integral e)

/-- The last decimal digit of a number. -/
def lastDigit (n : Nat) : Fin 10 := ⟨n % 10, Nat.mod_lt n (by decide)⟩

/-- The last `places` decimal digits of `n`. -/
def lastDigits : Nat → Nat → List (Fin 10)
  | 0, _ => []
  | places + 1, n => lastDigit (n / pow10 places) :: lastDigits places n

/-- The numeral of `n / 10 ^ places`, with that many fraction digits. -/
def scaled (negative : Bool) (n places : Nat) : Numeral :=
  ⟨negative, n / pow10 places, lastDigits places n, none⟩

end Numeral

end UsageRules
