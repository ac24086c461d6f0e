import PlanAudit.Pattern.Search

/-! The wording that plans are searched for. -/
namespace PlanAudit.Vocabulary

open Pattern

/-- A pattern between two word edges. -/
def wholeWord (p : Pattern) : Pattern :=
  sequence [wordEdge, p, wordEdge]

/-- Tokens that stand for text still to be written, and how each is recognised. -/
def placeholders : List (String × Pattern) :=
  [("TBD", wholeWord (caseless "TBD")),
   ("TODO", wholeWord (caseless "TODO")),
   ("[placeholder]", caseless "[placeholder]"),
   ("coming soon", caseless "coming soon"),
   ("fill this in", caseless "fill this in"),
   ("to be determined", caseless "to be determined")]

/-- Hedged wording. -/
def ambiguous : Pattern :=
  wholeWord (oneOf (caseless "might")
    (["could", "maybe", "possibly", "perhaps", "unclear", "TBD", "to be determined",
      "needs clarification"].map caseless))

/-- The openings of a question, and the question mark. -/
def questions : Pattern :=
  alt
    (wholeWord (oneOf (literal "Should we")
      (["What about", "What if", "How do we", "Which"].map literal)))
    (literal "?")

def digits : Pattern :=
  many1 (one .digit)

/-- Digits, and maybe a point and more digits. -/
def number : Pattern :=
  seq digits (optional (seq (literal ".") digits))

/-- A unit of time, some with or without the s of the plural. -/
def timeUnit : Pattern :=
  let plural (unit : String) := seq (caseless unit) (optional (caseless "s"))
  oneOf (caseless "ms") (["millisecond", "second", "sec", "minute", "min", "hour", "day"].map plural)

/-- Values that can be measured: percentages, spans of time, comparisons and bare numbers. -/
def measurable : Pattern :=
  oneOf (sequence [number, many (one .blank), literal "%"]) [
    sequence [number, many (one .blank), timeUnit, wordEdge],
    literal ">=",
    literal "<=",
    one (.union (.only '<') (.only '>')),
    wholeWord number]

/-- The vocabulary of edge cases. -/
def edgeCases : Pattern :=
  oneOf (caseless "edge case")
    (["scenario", "boundary", "invalid", "empty", "null", "error", "exception"].map caseless)

/-- Words of time estimates, wherever they occur. -/
def timeKeywords : List String :=
  ["hours", "minutes", "duration", "timeline", "schedule", "deadline", "estimated_time",
   "time_estimate"]

/-- Words about time that estimate nothing. -/
def timeFalsePositives : Pattern :=
  oneOf (literal "real-time") (["realtime", "runtime", "run-time"].map literal)

/-- A part of a workorder id between two hyphens. -/
def workorderToken : Pattern :=
  many1 (one (.union (.range 'A' 'Z') (.range '0' '9')))

/-- The form of workorder ids: `WO`, one or more tokens and `001`, joined by hyphens. -/
def workorderId : Pattern :=
  sequence [textStart, literal "WO-", workorderToken, many (seq (literal "-") workorderToken),
    literal "-001", textEnd]

end PlanAudit.Vocabulary
