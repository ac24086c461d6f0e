import PlanAudit.Load
import PlanAudit.Proofs.Json.ReadValues

/-! The text of a plan. A plan that was loaded is loaded again from its text, so that nothing gets lost
where a plan is searched by its text. -/
namespace PlanAudit

namespace Plan

theorem ofJson_eq_ok_iff {value : Json} {plan : Plan} :
    ofJson value = .ok plan ↔ value = plan.toJson := by
  constructor
  · intro h
    unfold ofJson at h
    split at h
    · cases h
      rfl
    · cases h
    · cases h
  · rintro rfl
    rfl

section

variable [Json.FloatFormat]

/-- The look for a blank text decides which error is given, but not which texts hold a plan. -/
theorem load_eq_ok_iff {text : String} {plan : Plan} :
    load text = .ok plan ↔ Json.read text = .ok plan.toJson := by
  constructor
  · intro h
    unfold load at h
    split at h
    · cases h
    · obtain ⟨value, hread, hplan⟩ := exists_of_bind_eq_ok h
      rw [← ofJson_eq_ok_iff.1 hplan]
      exact mapError_eq_ok_iff.1 hread
  · intro h
    obtain ⟨c, hc, hblank⟩ := Json.exists_not_blank_of_read h
    have hsome : ¬ text.toList.all Text.isBlank = true := by
      intro hall
      rw [List.all_eq_true.1 hall c hc] at hblank
      cases hblank
    have hread : readJson text = .ok plan.toJson := mapError_eq_ok_iff.2 h
    unfold load
    rw [if_neg hsome, hread]
    rfl

/-- However floats are read and written, if the text of each is read as that float, then what is loaded
from the text of a loaded plan is that plan again, and so its text is the same. -/
theorem loaded_again_from_text
    (hfloats : ∀ x : Binary64, Json.read (Json.float x).compact = .ok (.float x))
    {text : String} {plan : Plan} (h : load text = .ok plan) :
    ∃ again, load plan.text = .ok again ∧ again = plan ∧ again.text = plan.text := by
  have hread := load_eq_ok_iff.1 h
  have hagain := Json.read_compact_of_read hfloats hread
  exact ⟨plan, load_eq_ok_iff.2 hagain, rfl, rfl⟩

end

def half : Binary64 :=
  ⟨false, 4503599627370496, -53, by decide⟩

/-- An object with a key that is written twice, and other keys out of order. -/
def untidyObject : Json :=
  .object [
    ("steps", .array []),
    ("goal", .string "say \"a\\b\"\n"),
    ("steps", .object [("least", .integer (-9223372036854775808)), ("done", .float half)])]

def tidyPlan : Plan :=
  ⟨[("goal", .string "say \"a\\b\"\n"),
    ("steps", .object [("done", .float half), ("least", .integer (-9223372036854775808))])]⟩

private theorem fits_untidyObject : Json.Fits Json.maxDepth untidyObject := by
  refine .object fun member hmember => ?_
  simp only [List.mem_cons, List.not_mem_nil, or_false] at hmember
  rcases hmember with rfl | rfl | rfl
  · exact .array (List.forall_mem_nil _)
  · exact .string _
  · refine .object fun inner hinner => ?_
    simp only [List.mem_cons, List.not_mem_nil, or_false] at hinner
    rcases hinner with rfl | rfl
    · exact .integer (by constructor <;> decide)
    · exact .float (Json.floatReadsBack_nearest half)

theorem untidy_text_loads_again :
    (∀ x : Binary64, Json.read (Json.float x).compact = .ok (.float x)) ∧
      load untidyObject.pretty = .ok tidyPlan ∧
      ∃ again, load tidyPlan.text = .ok again ∧ again = tidyPlan ∧ again.text = tidyPlan.text := by
  have hload : load untidyObject.pretty = .ok tidyPlan := by
    rw [load_eq_ok_iff, Json.read_pretty fits_untidyObject]
    rfl
  exact ⟨Json.floatReadsBack_nearest, hload,
    loaded_again_from_text Json.floatReadsBack_nearest hload⟩

end Plan

end PlanAudit
