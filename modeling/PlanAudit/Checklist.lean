import PlanAudit.Issue
import PlanAudit.Pattern.Search

/-! The checklist: named checks, each failed by the issues whose message has a certain form. -/
namespace PlanAudit

structure ChecklistItem where
  name : String
  failedBy : Pattern

namespace ChecklistItem

open Pattern

/-- An item that is failed by messages with a certain beginning. -/
def beginning (name start : String) : ChecklistItem :=
  ⟨name, seq textStart (literal start)⟩

/-- An item that is failed by messages that begin with a certain word or phrase. -/
def beginningWord (name start : String) : ChecklistItem :=
  ⟨name, sequence [textStart, literal start, wordEdge]⟩

/-- An item that is failed by one message. -/
def whole (name message : String) : ChecklistItem :=
  ⟨name, sequence [textStart, literal message, textEnd]⟩

def failedByMessage (item : ChecklistItem) (message : String) : Bool :=
  item.failedBy.occursIn message.toList

end ChecklistItem

namespace Checklist

open Pattern ChecklistItem

def items : List ChecklistItem :=
  [beginningWord "metadata_present" "Missing META_DOCUMENTATION",
   beginningWord "sections_container_present" "Missing UNIVERSAL_PLANNING_STRUCTURE",
   ⟨"all_sections_present", sequence [textStart, literal "Missing ",
      alt (literal "required section") (seq (literal "UNIVERSAL_PLANNING_STRUCTURE") wordEdge)]⟩,
   beginning "no_placeholder_text" "Placeholder text found",
   beginning "task_ids_unique" "Duplicate task ID",
   beginning "dependencies_valid" "Unknown dependency",
   beginning "no_circular_dependencies" "Circular dependency",
   beginning "task_descriptions_detailed" "Task description",
   beginning "phases_complete" "Phase missing required field",
   beginning "complexity_ratings_valid" "Invalid complexity",
   beginning "effort_levels_valid" "Invalid effort_level",
   beginning "no_deprecated_fields" "Deprecated field",
   beginning "success_criteria_measurable" "Success criteria not measurable",
   beginning "edge_case_behavior_defined" "Insufficient edge case coverage",
   whole "workorder_id_present" "Workorder missing id",
   beginning "workorder_id_format_valid" "Invalid workorder ID format",
   whole "workorder_name_present" "Workorder missing name",
   whole "workorder_feature_dir_present" "Workorder missing feature_dir",
   beginning "tasks_reference_workorder" "Task missing workorder_id",
   beginning "workorder_ids_consistent" "Workorder ID mismatch",
   beginning "no_ambiguous_language" "Ambiguous language",
   beginning "no_unresolved_questions" "Unresolved question",
   beginning "no_time_estimates" "Time-based estimates"]

/-- A check is passed if no issue fails it. -/
def passed (issues : List Issue) (item : ChecklistItem) : Bool :=
  !issues.any fun issue => item.failedByMessage issue.message

def project (issues : List Issue) : SortedMap Bool :=
  .ofList (items.map fun item => (item.name, passed issues item))

end Checklist

end PlanAudit
