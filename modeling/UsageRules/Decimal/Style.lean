import UsageRules.Decimal.Numeral
import UsageRules.Decimal.Shortest

/-! How decimals and doubles are laid out as numerals. -/

namespace UsageRules

/-- The decisions of a written form of doubles. -/
structure NumberStyle where
  /-- The exponents of the leading digit that are written without an exponent, if not all. -/
  positional : Option (Int × Int)
  /-- Whole numbers get a point and a zero. -/
  pointZero : Bool
  tie : Tie

namespace Decimal

def positional (negative pointZero : Bool) (d : Decimal) : Numeral :=
  if 0 ≤ d.exponent then
    ⟨negative, d.digits * pow10 d.exponent.toNat,
      if pointZero then [Numeral.lastDigit 0] else [], none⟩
  else .scaled negative d.digits (-d.exponent).toNat

/-- The numeral with one digit before the point and an exponent. -/
def scientific (negative : Bool) (d : Decimal) : Numeral :=
  let places := (Nat.toDigits 10 d.digits).length - 1
  { Numeral.scaled negative d.digits places with exponent := some (d.exponent + places) }

def leadingExponent (d : Decimal) : Int := d.exponent + (Nat.toDigits 10 d.digits).length - 1

end Decimal

namespace NumberStyle

/-- The shortest numeral of a magnitude. -/
def numeral (n : NumberStyle) (negative : Bool) (magnitude : Dyadic) : Numeral :=
  let d := magnitude.shortest n.tie
  match n.positional with
  | none => d.positional negative n.pointZero
  | some (least, greatest) =>
    if least ≤ d.leadingExponent ∧ d.leadingExponent ≤ greatest then
      d.positional negative n.pointZero
    else d.scientific negative

/-- Numbers in messages: never an exponent, and no point in whole numbers. -/
def message : NumberStyle := ⟨none, false, .up⟩

/-- Numbers in documents: always a point or an exponent, and an exponent only for very large and
very small numbers. -/
def document : NumberStyle := ⟨some (-5, 15), true, .toEven⟩

def messageText (x : Float) : String :=
  match DoubleValue.of x with
  | .nan => "NaN"
  | .infinite negative => if negative then "-inf" else "inf"
  | .finite negative magnitude => String.ofList (message.numeral negative magnitude).render

end NumberStyle

/-- The text of a number with a fixed number of places after the point; halves go to the even
neighbour. -/
def fixedPlaces (places : Nat) (x : Float) : String :=
  match DoubleValue.of x with
  | .nan => "NaN"
  | .infinite negative => if negative then "-inf" else "inf"
  | .finite negative magnitude =>
    let n := roundDiv (magnitude.numerator * pow10 places) magnitude.denominator .toEven
    String.ofList (Numeral.scaled negative n places).render

end UsageRules
