import PlanAudit.Json.Basic

/-! The JSON Schema of reports. -/
namespace PlanAudit

namespace ReportSchema

/-- A type with a description. -/
def typed (description kind : String) : Json :=
  .object [("description", .string description), ("type", .string kind)]

/-- A type that is defined elsewhere in the schema. -/
def defined (name : String) : Json.Members :=
  [("$ref", .string s!"#/$defs/{name}")]

def described (description : String) (members : Json.Members) : Json :=
  .object (("description", .string description) :: members)

/-- A text that is always the same. -/
def constant (description value : String) : Json :=
  described description [("type", .string "string"), ("const", .string value)]

def names (list : List String) : Json :=
  .array (list.map .string)

def reportProperties : Json :=
  .object [
    ("approved", typed "True exactly when `score >= 90`" "boolean"),
    ("checklist", described "Named pass/fail facts projected from the issues" [
      ("type", .string "object"),
      ("additionalProperties", .object [("type", .string "boolean")])]),
    ("issues", described "Every issue raised, in the order the checkers found them" [
      ("type", .string "array"),
      ("items", .object (defined "Issue"))]),
    ("score", described "Quality score in `0..=100`" [
      ("type", .string "integer"),
      ("format", .string "uint8"),
      ("maximum", .integer 255),
      ("minimum", .integer 0)]),
    ("verdict", described "Classification of the score" (defined "Verdict"))]

def issueSchema : Json :=
  described "One deficiency found while validating a plan." [
    ("type", .string "object"),
    ("properties", .object [
      ("issue", typed "Human-readable description of the deficiency" "string"),
      ("section",
        typed "Section (or logical area) of the document the issue belongs to" "string"),
      ("severity", described "How much the deficiency costs" (defined "Severity")),
      ("suggestion", typed "How to fix it" "string")]),
    ("required", names ["severity", "section", "issue", "suggestion"])]

def severitySchema : Json :=
  described "Type-safe enumeration of issue severities." [
    ("oneOf", .array [
      constant "The document is structurally broken or internally inconsistent" "critical",
      constant "The document is usable but a reviewer would send it back" "major",
      constant "A nit worth fixing when convenient" "minor"])]

def verdictSchema : Json :=
  described "Discrete classification derived from the numeric score." [
    ("oneOf", .array [
      constant "Score of 90 or above" "PASS",
      constant "Score in `85..90`" "PASS_WITH_WARNINGS",
      constant "Score in `70..85`" "NEEDS_REVISION",
      constant "Score below 70" "FAIL"])]

end ReportSchema

open ReportSchema in
def reportSchema : Json :=
  .object [
    ("$schema", .string "https://json-schema.org/draft/2020-12/schema"),
    ("title", .string "ValidationResult"),
    ("description", .string "Complete outcome of validating one plan document."),
    ("type", .string "object"),
    ("properties", reportProperties),
    ("required", names ["verdict", "score", "issues", "checklist", "approved"]),
    ("$defs", .object [
      ("Issue", issueSchema),
      ("Severity", severitySchema),
      ("Verdict", verdictSchema)])]

end PlanAudit
