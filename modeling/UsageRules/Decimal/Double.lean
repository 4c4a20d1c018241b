import UsageRules.Decimal.Numeral

/-! Doubles as exact numbers: `mantissa * 2 ^ exponent`, an infinity, or not a number. -/

namespace UsageRules

/-- The magnitude `mantissa * 2 ^ exponent`. -/
structure Dyadic where
  mantissa : Nat
  exponent : Int
  deriving DecidableEq, Repr

inductive DoubleValue where
  | nan
  | infinite (negative : Bool)
  | finite (negative : Bool) (magnitude : Dyadic)
  deriving DecidableEq, Repr

/-- The number that a double stands for: the least exponent has no leading bit, the greatest
stands for infinities and what is not a number. -/
def DoubleValue.of (x : Float) : DoubleValue :=
  let bits : Nat := x.toBits.toNat
  let negative := decide (bits / pow2 63 = 1)
  let biased : Nat := bits / pow2 52 % pow2 11
  let fraction : Nat := bits % pow2 52
  if biased = 2047 then (if fraction = 0 then .infinite negative else .nan)
  else if biased = 0 then .finite negative ⟨fraction, -1074⟩
  else .finite negative ⟨pow2 52 + fraction, (biased : Int) - 1075⟩

namespace Dyadic

def numerator (d : Dyadic) : Nat := d.mantissa * pow2 d.exponent.toNat

def denominator (d : Dyadic) : Nat := pow2 (-d.exponent).toNat

end Dyadic

/-- Which neighbour a number halfway between two takes. -/
inductive Tie where
  | toEven
  | up
  deriving DecidableEq, Repr

/-- The quotient rounded to the nearest natural number. -/
def roundDiv (num den : Nat) (tie : Tie) : Nat :=
  let q := num / den
  let twice := 2 * (num % den)
  if twice < den then q
  else if den < twice then q + 1
  else match tie with
    | .toEven => if q % 2 = 0 then q else q + 1
    | .up => q + 1

end UsageRules
