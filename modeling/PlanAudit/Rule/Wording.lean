import PlanAudit.Finding
import PlanAudit.Text.Window
import PlanAudit.Vocabulary

/-! Wording that a plan must not have, searched for in the text of the whole plan. -/
namespace PlanAudit.Rule

/-- Of each token the first occurrence is reported. -/
def placeholders (text : List Char) : List Finding :=
  Vocabulary.placeholders.filterMap fun (token, pattern) =>
    (pattern.find? text).map fun found => .placeholder token (String.ofList found.text)

/-- At most this many matches of a pattern are reported. -/
def reportLimit : Nat :=
  5

/-- How many bytes of the surroundings a report shows on either side. -/
def excerptRadius : Nat :=
  30

def excerptAt (text : List Char) (found : Match) : String :=
  String.ofList (Text.excerpt text found.start found.stop excerptRadius)

def ambiguousWording (text : List Char) : List Finding :=
  ((Vocabulary.ambiguous.matchesIn text).take reportLimit).map fun found =>
    .ambiguousWording (String.ofList found.text) (excerptAt text found)

def openQuestions (text : List Char) : List Finding :=
  ((Vocabulary.questions.matchesIn text).take reportLimit).map fun found =>
    .openQuestion (excerptAt text found)

/-- The time words of a text in lower case, apart from those that estimate nothing. -/
def timeKeywordsIn (text : List Char) : List String :=
  let rest := Vocabulary.timeFalsePositives.replaceIn ' ' (Text.lower text)
  Vocabulary.timeKeywords.filter fun keyword => (Pattern.literal keyword).occursIn rest

def timeEstimates (text : List Char) : List Finding :=
  match timeKeywordsIn text with
  | [] => []
  | keywords => [.timeEstimates keywords]

end PlanAudit.Rule
