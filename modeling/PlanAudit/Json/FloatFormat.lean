import PlanAudit.Decimal.Shortest

/-! How floats are read from JSON text, and with which digits they are written. -/
namespace PlanAudit.Json

def digitValue (c : Char) : Nat :=
  c.toNat - '0'.toNat

def natOfDigits (digits : List Char) : Nat :=
  digits.foldl (fun n c => 10 * n + digitValue c) 0

/-- A number as it is written, with its digits before and behind the decimal point. -/
structure Numeral where
  negative : Bool
  whole : List Char
  fraction : List Char
  power : Int

def Numeral.decimal (n : Numeral) : Decimal :=
  ⟨natOfDigits (n.whole ++ n.fraction), n.power - n.fraction.length⟩

/-- Which float a number is read as, if it is not too large for one, and which decimal is written for a
float. The reader and the printer of JSON text can do with any choice of the two. -/
class FloatFormat where
  read : Numeral → Option Binary64
  digits : Binary64 → Decimal

/-- Reading rounds to the nearest float, and the fewest digits are written that do not round to another
one. -/
instance nearestFloat : FloatFormat where
  read n := Binary64.ofDecimal? n.negative n.decimal
  digits := Binary64.shortest

end PlanAudit.Json
