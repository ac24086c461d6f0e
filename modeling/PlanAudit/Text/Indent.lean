/-! Texts of several lines under an indentation. -/
namespace PlanAudit.Text

/-- The lines of a text, all but the first indented. -/
def indentLines (indent : String) (text : String) : String :=
  ("\n" ++ indent).intercalate (text.splitOn "\n")

end PlanAudit.Text
