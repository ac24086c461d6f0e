/-! Finite binary64 numbers and the one nearest to a decimal. -/
namespace PlanAudit

/-- Significands lie below this limit, which is two to the power 53. -/
def Binary64.limit : Nat :=
  9007199254740992

/-- A finite binary64 number is `significand * 2 ^ exponent`, where the significand fills 53 bits
unless the exponent is the least one. -/
def Binary64.Canonical (significand : Nat) (exponent : Int) : Prop :=
  significand < limit ∧ -1074 ≤ exponent ∧ exponent ≤ 971 ∧
    (limit ≤ 2 * significand ∨ exponent = -1074)

instance (m : Nat) (q : Int) : Decidable (Binary64.Canonical m q) := by
  unfold Binary64.Canonical
  infer_instance

structure Binary64 where
  negative : Bool
  significand : Nat
  exponent : Int
  canonical : Binary64.Canonical significand exponent
  deriving DecidableEq, Repr

/-- The decimal `digits * 10 ^ exponent`. -/
structure Decimal where
  digits : Nat
  exponent : Int
  deriving DecidableEq, Repr

namespace Decimal

/-- Move up to `limit` zeros from the end of the digits into the exponent. -/
def dropZeros : (limit : Nat) → Decimal → Decimal
  | 0, d => d
  | limit + 1, d =>
    if d.digits % 10 = 0 then dropZeros limit ⟨d.digits / 10, d.exponent + 1⟩ else d

/-- The same number with no zero at the end of its digits. -/
def reduce (d : Decimal) : Decimal :=
  if d.digits = 0 then ⟨0, 0⟩ else dropZeros d.digits.log2 d

/-- A positive number lies below ten to this power, and not below the power before it. -/
def magnitude (d : Decimal) : Int :=
  (Nat.toDigits 10 d.digits).length + d.exponent

/-- Numerator and denominator. -/
def ratio (d : Decimal) : Nat × Nat :=
  if d.exponent < 0 then (d.digits, Nat.pow 10 (-d.exponent).toNat)
  else (d.digits * Nat.pow 10 d.exponent.toNat, 1)

end Decimal

/-- The integer nearest to a quotient, the even one if two are equally near. -/
def roundQuotient (num den : Nat) : Nat :=
  let floor := num / den
  let twice := 2 * (num % den)
  if twice < den then floor
  else if den < twice then floor + 1
  else floor + floor % 2

/-- A quotient divided by a power of two, again as numerator and denominator. -/
def divTwoPow (num den : Nat) (power : Int) : Nat × Nat :=
  if power < 0 then (num * Nat.pow 2 (-power).toNat, den)
  else (num, den * Nat.pow 2 power.toNat)

/-- The greatest power of two that is at most a positive quotient. -/
def floorLog2 (num den : Nat) : Int :=
  let power : Int := (num.log2 : Int) - den.log2
  let scaled := divTwoPow num den power
  if scaled.2 ≤ scaled.1 then power else power - 1

namespace Binary64

def zero (negative : Bool) : Binary64 :=
  ⟨negative, 0, -1074, by decide⟩

/-- The number nearest to a positive quotient, the one with the even significand if two are equally
near, or nothing if it is beyond the greatest finite number. -/
def ofQuotient? (negative : Bool) (num den : Nat) : Option Binary64 :=
  let exponent := max (-1074) (floorLog2 num den - 52)
  let scaled := divTwoPow num den exponent
  let significand := roundQuotient scaled.1 scaled.2
  let (m, q) := if significand = limit then (limit / 2, exponent + 1) else (significand, exponent)
  if h : Canonical m q then some ⟨negative, m, q, h⟩ else none

/-- The number nearest to a decimal, or nothing if the decimal is too large. The magnitude alone
decides about decimals far out of range, so that no huge power is ever computed. -/
def ofDecimal? (negative : Bool) (decimal : Decimal) : Option Binary64 :=
  let d := decimal.reduce
  if d.digits = 0 ∨ d.magnitude < -330 then some (zero negative)
  else if 310 < d.magnitude then none
  else ofQuotient? negative d.ratio.1 d.ratio.2

/-- Equal as numbers: the two zeros are the same. -/
def sameValue (x y : Binary64) : Bool :=
  x == y || (x.significand == 0 && y.significand == 0)

end Binary64

end PlanAudit
