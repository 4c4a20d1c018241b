import UsageRules.Decimal.Double

/-! The fewest decimal digits that identify a double among all doubles. -/

namespace UsageRules

/-- The number `digits * 10 ^ exponent`. -/
structure Decimal where
  digits : Nat
  exponent : Int
  deriving DecidableEq, Repr

namespace Decimal

/-- Moves at most `fuel` trailing zeros of the digits into the exponent. -/
def stripZeros : Nat → Decimal → Decimal
  | 0, d => d
  | fuel + 1, d =>
    if d.digits ≠ 0 ∧ d.digits % 10 = 0 then stripZeros fuel ⟨d.digits / 10, d.exponent + 1⟩ else d

end Decimal

namespace Dyadic

/-- The exponent of the leading decimal digit of a magnitude between `10 ^ -400` and
`10 ^ 400`. -/
def leadingExponent (d : Dyadic) : Int :=
  ((Nat.toDigits 10 (d.numerator * pow10 400 / d.denominator)).length : Int) - 401

/-- The better of the two neighbours of `d` on the grid of multiples of `10 ^ g`, among those
nearer to `d` than to any other double. Half the distance to the next double is `2` quarter units
of the mantissa, downwards only `1` at a power of two; a number exactly between two doubles reads
as the one with the even mantissa. -/
def neighbour? (d : Dyadic) (tie : Tie) (g : Int) : Option Decimal :=
  let unit := 4 * pow10 g.toNat * pow2 (-d.exponent).toNat
  let quarter := pow2 d.exponent.toNat * pow10 (-g).toNat
  let value := 4 * d.mantissa * quarter
  let low := value - (if d.mantissa = pow2 52 ∧ -1074 < d.exponent then 1 else 2) * quarter
  let high := value + 2 * quarter
  let inside (c : Nat) : Bool :=
    if d.mantissa % 2 = 0 then low ≤ c * unit && c * unit ≤ high
    else low < c * unit && c * unit < high
  let below := value / unit
  let nearer := roundDiv value unit tie
  let farther := if nearer = below then below + 1 else below
  if nearer ≠ 0 && inside nearer then some ⟨nearer, g⟩
  else if farther ≠ 0 && inside farther then some ⟨farther, g⟩
  else none

/-- The decimal with the fewest digits that is nearer to the magnitude than to that of any other
double, and of those the nearest. Seventeen digits are always enough. -/
def shortest (d : Dyadic) (tie : Tie) : Decimal :=
  if d.mantissa = 0 then ⟨0, 0⟩
  else
    let lead := d.leadingExponent
    match (List.range 18).findSome? fun (n : Nat) => d.neighbour? tie (lead - n) with
    | some found => found.stripZeros 20
    | none => ⟨d.numerator * pow10 400 / d.denominator, -400⟩

end Dyadic

end UsageRules
