import PlanAudit.Json.Basic

/-! When two JSON values count as the same: they are equal, but for the signs of zeros. -/
namespace PlanAudit

/-- The number itself, but the positive zero for both zeros. -/
def Binary64.withoutZeroSign (x : Binary64) : Binary64 :=
  if x.significand = 0 then zero false else x

theorem Binary64.sameValue_iff (x y : Binary64) :
    x.sameValue y = true ↔ x.withoutZeroSign = y.withoutZeroSign := by
  have hzero : ∀ z : Binary64, z.significand ≠ 0 → zero false ≠ z := by
    rintro z hz rfl
    exact hz rfl
  unfold sameValue withoutZeroSign
  rw [Bool.or_eq_true, Bool.and_eq_true, beq_iff_eq, beq_iff_eq, beq_iff_eq]
  by_cases hx : x.significand = 0
  · by_cases hy : y.significand = 0
    · simp [hx, hy]
    · rw [if_pos hx, if_neg hy]
      refine iff_of_false ?_ (hzero y hy)
      rintro (rfl | h)
      · exact hy hx
      · exact hy h.2
  · by_cases hy : y.significand = 0
    · rw [if_neg hx, if_pos hy]
      refine iff_of_false ?_ (hzero x hx).symm
      rintro (rfl | h)
      · exact hx hy
      · exact hx h.1
    · simp [hx, hy]

namespace Json

mutual

def withoutZeroSigns : Json → Json
  | float x => float x.withoutZeroSign
  | array items => array (withoutZeroSignsItems items)
  | object members => object (withoutZeroSignsMembers members)
  | value => value

def withoutZeroSignsItems : List Json → List Json
  | [] => []
  | item :: items => withoutZeroSigns item :: withoutZeroSignsItems items

def withoutZeroSignsMembers : List (String × Json) → List (String × Json)
  | [] => []
  | (key, value) :: members => (key, withoutZeroSigns value) :: withoutZeroSignsMembers members

end

mutual

theorem same_iff : (a b : Json) → (a.same b = true ↔ a.withoutZeroSigns = b.withoutZeroSigns)
  | null, b => by cases b <;> simp [same, withoutZeroSigns]
  | bool _, b => by cases b <;> simp [same, withoutZeroSigns]
  | integer _, b => by cases b <;> simp [same, withoutZeroSigns]
  | float x, b => by cases b <;> simp [same, withoutZeroSigns, Binary64.sameValue_iff]
  | string _, b => by cases b <;> simp [same, withoutZeroSigns]
  | array items, b => by
    cases b with
    | array others => simpa [same, withoutZeroSigns] using sameItems_iff items others
    | _ => simp [same, withoutZeroSigns]
  | object members, b => by
    cases b with
    | object others => simpa [same, withoutZeroSigns] using sameMembers_iff members others
    | _ => simp [same, withoutZeroSigns]

private theorem sameItems_iff : (items others : List Json) →
    (sameItems items others = true ↔ withoutZeroSignsItems items = withoutZeroSignsItems others)
  | [], [] => by simp [sameItems]
  | [], _ :: _ => by simp [sameItems, withoutZeroSignsItems]
  | _ :: _, [] => by simp [sameItems, withoutZeroSignsItems]
  | item :: items, other :: others => by
    simp [sameItems, withoutZeroSignsItems, same_iff item other, sameItems_iff items others]

private theorem sameMembers_iff : (members others : List (String × Json)) →
    (sameMembers members others = true ↔
      withoutZeroSignsMembers members = withoutZeroSignsMembers others)
  | [], [] => by simp [sameMembers]
  | [], _ :: _ => by simp [sameMembers, withoutZeroSignsMembers]
  | _ :: _, [] => by simp [sameMembers, withoutZeroSignsMembers]
  | (key, value) :: members, (other, content) :: others => by
    simp [sameMembers, withoutZeroSignsMembers, same_iff value content,
      sameMembers_iff members others, and_assoc]

end

end Json

end PlanAudit
