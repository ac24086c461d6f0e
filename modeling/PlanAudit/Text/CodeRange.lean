/-! Tables of code points, kept as ranges. -/
namespace PlanAudit.Text

/-- Ranges of code points in ascending order, both ends included. -/
abbrev CodeRanges := List (Nat × Nat)

/-- The scan ends at the first range that starts beyond the code point. -/
def CodeRanges.covers : CodeRanges → Nat → Bool
  | [], _ => false
  | (first, last) :: rest, n => first ≤ n && (n ≤ last || covers rest n)

end PlanAudit.Text
