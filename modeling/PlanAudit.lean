import PlanAudit.Main
import PlanAudit.Proofs.RequiredList
import PlanAudit.Proofs.CleanPlan
import PlanAudit.Proofs.Dependency.DeclaredIds
import PlanAudit.Proofs.Dependency.DisjointEdges
import PlanAudit.Proofs.Dependency.RecursiveSearch
import PlanAudit.Proofs.Execution
import PlanAudit.Proofs.WordingInStrings
import PlanAudit.Session
import PlanAudit.Proofs.ReportConsistency
import PlanAudit.Proofs.Decimal.Digits
import PlanAudit.Proofs.PhaseForms
import PlanAudit.Proofs.Decimal.ReadBack
import PlanAudit.Proofs.Json.NumberText
import PlanAudit.Proofs.Json.StringText
import PlanAudit.Proofs.Json.ValueText
import PlanAudit.Proofs.Json.ReadValues
import PlanAudit.Proofs.TimeKeywords
import PlanAudit.Proofs.PlanText
import PlanAudit.Proofs.Json.OneLine
import PlanAudit.Proofs.ReportText
import PlanAudit.Proofs.ValidateCommand
import PlanAudit.Proofs.Language
import PlanAudit.Proofs.WorkorderId
import PlanAudit.Proofs.Json.SameValue
import PlanAudit.Proofs.WorkorderCheck
import PlanAudit.Proofs.ByteOrder
import PlanAudit.Proofs.KeyedPhases
import PlanAudit.Proofs.MatchCount
import PlanAudit.Proofs.EdgeCases
import PlanAudit.Proofs.DeprecatedDuration
import PlanAudit.Proofs.BareTasks
import PlanAudit.Proofs.Dependency.SearchStates
import PlanAudit.Proofs.Dependency.StepCount
import PlanAudit.Proofs.Excerpt
