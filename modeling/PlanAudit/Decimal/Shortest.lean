import PlanAudit.Decimal.Binary64

/-! The fewest decimal digits that tell a binary64 number from the others, and how they are written. -/
namespace PlanAudit

namespace Binary64

/-- The magnitude of the number without its sign: numerator and denominator. -/
def ratio (x : Binary64) : Nat × Nat :=
  divTwoPow x.significand 1 (-x.exponent)

/-- The number's decimal expansion to its last digit. -/
def expansion (x : Binary64) : Decimal :=
  if x.exponent < 0 then ⟨x.significand * Nat.pow 5 (-x.exponent).toNat, x.exponent⟩
  else ⟨x.significand * Nat.pow 2 x.exponent.toNat, 0⟩

/-- The greatest power of ten that is at most the number, which is not zero. -/
def decade (x : Binary64) : Int :=
  x.expansion.magnitude - 1

def isNearestTo (x : Binary64) (d : Decimal) : Bool :=
  ofDecimal? x.negative d == some x

/-- The number's neighbour among the decimals with `count` digits to which no other number is nearer. Of
two the nearer one is taken, at equal distance the even one. -/
def neighbour? (x : Binary64) (count : Nat) : Option Decimal :=
  let unit := x.decade - count + 1
  let (num, den) := x.ratio
  let (num, den) :=
    if unit < 0 then (num * Nat.pow 10 (-unit).toNat, den) else (num, den * Nat.pow 10 unit.toNat)
  let below : Decimal := ⟨num / den, unit⟩
  let above : Decimal := ⟨num / den + 1, unit⟩
  match x.isNearestTo below, x.isNearestTo above with
  | true, true => some (if roundQuotient num den = num / den then below else above)
  | true, false => some below
  | false, true => some above
  | false, false => none

/-- A decimal with the fewest digits among those to which no other number is nearer. -/
def shortest (x : Binary64) : Decimal :=
  if x.significand = 0 then ⟨0, 0⟩
  else (((List.range' 1 17).findSome? x.neighbour?).getD x.expansion).reduce

end Binary64

/-- Where a number is written without an exponent: from ten to the power `least` up to, but not
including, ten to the power `greatest + 1`. -/
structure DecimalLayout where
  least : Int
  greatest : Int

/-- Digits with the decimal point behind the first one, and the power of ten that belongs to them. -/
def writeScientific (digits : List Char) (power : Int) : List Char :=
  let fraction := digits.drop 1
  let sign := if power < 0 then '-' else '+'
  digits.take 1 ++ (if fraction.isEmpty then [] else '.' :: fraction)
    ++ 'e' :: sign :: Nat.toDigits 10 power.natAbs

/-- Digits with the decimal point at its place, and at least one digit on both sides of it. -/
def writePositional (digits : List Char) (power : Int) : List Char :=
  if power < 0 then
    '0' :: '.' :: List.replicate (-power - 1).toNat '0' ++ digits
  else
    let count := power.toNat + 1
    let fraction := digits.drop count
    digits.take count ++ List.replicate (count - digits.length) '0'
      ++ '.' :: (if fraction.isEmpty then ['0'] else fraction)

def Decimal.writeUnsigned (layout : DecimalLayout) (d : Decimal) : List Char :=
  let digits := Nat.toDigits 10 d.digits
  let power := d.magnitude - 1
  if d.digits = 0 then ['0', '.', '0']
  else if layout.least ≤ power ∧ power ≤ layout.greatest then writePositional digits power
  else writeScientific digits power

def Decimal.write (layout : DecimalLayout) (negative : Bool) (d : Decimal) : List Char :=
  if negative then '-' :: d.writeUnsigned layout else d.writeUnsigned layout

end PlanAudit
