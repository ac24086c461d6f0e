import PlanAudit.Command.Run
import PlanAudit.Proofs.PlanText
import PlanAudit.Proofs.ReportConsistency
import PlanAudit.Proofs.ReportText

/-! How the command that validates a plan ends. If one of its files cannot be loaded, it prints nothing and
fails; otherwise it prints the report. -/
namespace PlanAudit

namespace Outcome

structure Refused (outcome : Outcome) : Prop where
  status : outcome.status = 1
  stdout : outcome.stdout = ""

/-- The run prints a report and a line break, and fails only if it is strict and the report bad. -/
structure Reports (outcome : Outcome) (options : ValidateOptions) (report : Report) : Prop where
  printed : ∃ text value, outcome.stdout = text ++ "\n" ∧ Json.read text = .ok value ∧
    Report.ofJson value = .ok report
  single_line : options.compact = true → outcome.stdout.toList.count '\n' = 1
  status : outcome.status = if options.strict = true ∧ 10 < report.penalty then 1 else 0

variable {outcome : Outcome} {options : ValidateOptions} {report : Report}

theorem Reports.not_refused (h : outcome.Reports options report) : ¬ outcome.Refused := by
  intro hrefused
  obtain ⟨text, _, hstdout, _⟩ := h.printed
  have hempty : text ++ "\n" = "" := hstdout.symm.trans hrefused.stdout
  have hbreak : "\n" = "" := (String.append_eq_empty_iff.1 hempty).2
  exact absurd hbreak (by decide)

end Outcome

namespace Report

def print (report : Report) (compact : Bool) : String :=
  if compact then report.toJson.compact else report.toJson.pretty

theorem exists_read_print (report : Report) (compact : Bool) :
    ∃ value, Json.read (report.print compact) = .ok value ∧ ofJson value = .ok report := by
  have hfits : Json.Fits Json.maxDepth report.toJson := report.fits_toJson 124
  refine ⟨report.toJson.sorted, ?_, report.ofJson_sorted⟩
  cases compact with
  | false => exact Json.read_pretty hfits
  | true => exact Json.read_compact hfits

theorem count_newline_print (report : Report) : (report.print true).toList.count '\n' = 0 := by
  rw [List.count_eq_zero]
  intro hmem
  have hprintable := Json.printable_chars report.toJson
  have hlarge : 32 ≤ '\n'.toNat := by
    refine hprintable _ ?_
    simpa [print, Json.compact] using hmem
  exact absurd hlarge (by decide)

/-- A report is not approved exactly if its penalty is above the limit. -/
theorem approved_eq_false_iff (issues : List Issue) :
    (Report.ofIssues issues).approved = false ↔ 10 < (Report.ofIssues issues).penalty := by
  have hconsistent := consistent_ofIssues issues
  rw [← Bool.not_eq_true, hconsistent.approved, hconsistent.pass, Nat.not_le]

end Report

/-- Arguments that spell the options. The plan stands behind two hyphens, as it may begin with one. -/
def ValidateOptions.args (options : ValidateOptions) : List String :=
  "validate" :: (options.sectionFile.toList.map ("--schema=" ++ ·) ++
    ((if options.compact then ["--compact"] else []) ++
      ((if options.strict then ["--strict"] else []) ++ ["--", options.plan])))

namespace Command

variable {read : FileReader} {threshold : Option LogLevel} {options : ValidateOptions}

theorem run_of_sectionList_error {error : LoadError}
    (h : sectionListOf read options.sectionFile = .error error) :
    run read threshold (.validate options) =
      ⟨1, "", failureText "Failed to load schema reference" error.chain⟩ := by
  simp only [run, runValidate, h]

theorem run_of_plan_error {list : Option SectionList} {error : LoadError}
    (hlist : sectionListOf read options.sectionFile = .ok list)
    (hplan : (Plan.loadFile read options.plan).2 = .error error) :
    (run read threshold (.validate options)).Refused := by
  simp only [run, runValidate, hlist, hplan]
  exact ⟨rfl, rfl⟩

theorem run_of_loaded {list : Option SectionList} {plan : Plan}
    (hlist : sectionListOf read options.sectionFile = .ok list)
    (hplan : (Plan.loadFile read options.plan).2 = .ok plan) :
    (run read threshold (.validate options)).Reports options
      ((Setup.new.withSections list).build.validate plan) := by
  let report := (Setup.new.withSections list).build.validate plan
  obtain ⟨value, hread, hdecode⟩ := report.exists_read_print options.compact
  have hstdout : (run read threshold (.validate options)).stdout =
      report.print options.compact ++ "\n" := by
    simp only [run, runValidate, hlist, hplan]
    rfl
  have hstatus : (run read threshold (.validate options)).status =
      if options.strict && !report.approved then 1 else 0 := by
    simp only [run, runValidate, hlist, hplan]
    rfl
  refine ⟨⟨_, value, hstdout, hread, hdecode⟩, fun hcompact => ?_, ?_⟩
  · rw [hstdout, hcompact, String.toList_append, List.count_append, report.count_newline_print]
    decide
  · have hbad : report.approved = false ↔ 10 < report.penalty := Report.approved_eq_false_iff _
    have hfails : (options.strict && !report.approved) = true ↔
        options.strict = true ∧ 10 < report.penalty := by
      rw [Bool.and_eq_true, Bool.not_eq_true', hbad]
    rw [hstatus]
    exact if_congr hfails rfl rfl

/-- The files decide whether there is a report. -/
theorem refused_iff :
    (run read threshold (.validate options)).Refused ↔
      (∃ error, sectionListOf read options.sectionFile = .error error) ∨
        ∃ error, (Plan.loadFile read options.plan).2 = .error error := by
  cases hlist : sectionListOf read options.sectionFile with
  | error error =>
    rw [run_of_sectionList_error hlist]
    exact iff_of_true ⟨rfl, rfl⟩ (.inl ⟨error, rfl⟩)
  | ok list =>
    cases hplan : (Plan.loadFile read options.plan).2 with
    | error error => exact iff_of_true (run_of_plan_error hlist hplan) (.inr ⟨error, rfl⟩)
    | ok plan =>
      refine iff_of_false (run_of_loaded hlist hplan).not_refused ?_
      rintro (⟨error, herror⟩ | ⟨error, herror⟩)
      · cases herror
      · cases herror

/-- Only a file that is named can fail to be loaded. -/
theorem sectionListOf_eq_error_iff {sectionFile : Option String} :
    (∃ error, sectionListOf read sectionFile = .error error) ↔
      ∃ path error, sectionFile = some path ∧ SectionList.loadFile read path = .error error := by
  cases sectionFile with
  | none => simp [sectionListOf]
  | some path =>
    simp only [sectionListOf, Option.some_inj, exists_and_left, exists_eq_left']
    cases SectionList.loadFile read path <;> simp [Except.map]

/-- No text that begins otherwise is an option with a section file. -/
theorem sectionFileOption_ne {text : String} (path : String)
    (h : ¬ "--schema=".toList <+: text.toList) : "--schema=" ++ path ≠ text := by
  rintro rfl
  apply h
  rw [String.toList_append]
  exact List.prefix_append _ _

/-- The section file is what stands behind the equals sign of its option. -/
theorem readValidate_sectionFile (given : Given) (path : String) (args : List String) :
    readValidate given (("--schema=" ++ path) :: args) =
      (given.withSectionFile path).bind (readValidate · args) := by
  have hlist : ("--schema=" ++ path).toList = "--schema=".toList ++ path.toList :=
    String.toList_append
  have hhelp : asksForHelp ("--schema=" ++ path) = false := by
    rw [asksForHelp, Bool.or_eq_false_iff]
    constructor
    · exact beq_eq_false_iff_ne.2 (sectionFileOption_ne path (by decide))
    · rw [String.startsWith_string_eq_false_iff, hlist]
      simp
  have hvalue : sectionFileValue? ("--schema=" ++ path) = some path := by
    rw [sectionFileValue?, hlist]
    simp [List.isPrefixOf?]
  rw [readValidate, hhelp, hvalue]
  · rfl
  · exact sectionFileOption_ne path (by decide)
  · exact sectionFileOption_ne path (by decide)
  · exact sectionFileOption_ne path (by decide)
  · exact fun _ _ hname => absurd hname (sectionFileOption_ne path (by decide))

private theorem readValidate_flags (sectionFile : Option String) {plan : String} (hplan : plan ≠ "")
    (compact strict : Bool) :
    readValidate ⟨none, sectionFile, false, false⟩ ((if compact then ["--compact"] else []) ++
      ((if strict then ["--strict"] else []) ++ ["--", plan])) =
        some (validate ⟨plan, sectionFile, compact, strict⟩) := by
  have hgiven : plan.isEmpty = false := by simpa using hplan
  cases compact <;> cases strict <;>
    simp [readValidate, readPlans, Given.withCompact, Given.withStrict, Given.withPlan,
      Given.options?, hgiven]

/-- The options are read from the arguments that spell them, unless a path is empty. -/
theorem parse_args {options : ValidateOptions} (hplan : options.plan ≠ "")
    (hfile : options.sectionFile ≠ some "") : parse options.args = some (.validate options) := by
  obtain ⟨plan, sectionFile, compact, strict⟩ := options
  rw [ValidateOptions.args, parse]
  cases sectionFile with
  | none => exact readValidate_flags none hplan compact strict
  | some path =>
    have hgiven : Given.nothing.withSectionFile path = some ⟨none, some path, false, false⟩ := by
      have hpath : path.isEmpty = false := by simpa using hfile
      simp [Given.withSectionFile, Given.nothing, hpath]
    rw [Option.toList_some, List.map_singleton, List.singleton_append, readValidate_sectionFile,
      hgiven]
    exact readValidate_flags (some path) hplan compact strict

/-- The list of sections is loaded before the plan, so a list that cannot be loaded decides the
outcome alone. -/
theorem validate_refuses_or_reports (read : FileReader) (threshold : Option LogLevel)
    (options : ValidateOptions) :
    let outcome := run read threshold (.validate options)
    (outcome.Refused ↔
      (∃ path error, options.sectionFile = some path ∧
        SectionList.loadFile read path = .error error) ∨
      ∃ error, (Plan.loadFile read options.plan).2 = .error error) ∧
    (∀ path error, options.sectionFile = some path →
      SectionList.loadFile read path = .error error →
      ∀ plan compact strict,
        run read threshold (.validate ⟨plan, options.sectionFile, compact, strict⟩) = outcome) ∧
    (∀ list plan, sectionListOf read options.sectionFile = .ok list →
      (Plan.loadFile read options.plan).2 = .ok plan →
      ∀ compact strict,
        (run read threshold (.validate ⟨options.plan, options.sectionFile, compact, strict⟩)).Reports
          ⟨options.plan, options.sectionFile, compact, strict⟩
          ((Setup.new.withSections list).build.validate plan)) ∧
    (options.plan ≠ "" → options.sectionFile ≠ some "" →
      runArgs read threshold options.args = outcome) := by
  refine ⟨?_, ?_, ?_, ?_⟩
  · rw [refused_iff, sectionListOf_eq_error_iff]
  · intro path error hpath hload plan compact strict
    obtain ⟨error, hlist⟩ := sectionListOf_eq_error_iff.2 ⟨path, error, hpath, hload⟩
    rw [run_of_sectionList_error hlist]
    exact run_of_sectionList_error hlist
  · intro list plan hlist hplan compact strict
    exact run_of_loaded hlist hplan
  · intro hplan hfile
    rw [runArgs, parse_args hplan hfile]

def emptyObjectFile : FileReader := fun path =>
  if path = "plan.json" then .ok "\x7b\x7d".toUTF8 else .error .notFound

private theorem loadFile_emptyObjectFile :
    (Plan.loadFile emptyObjectFile "plan.json").2 = .ok ⟨[]⟩ := by
  have htext : FileReader.text emptyObjectFile "plan.json" = .ok "\x7b\x7d" := by decide
  have hfits : Json.Fits Json.maxDepth (.object []) := .object (List.forall_mem_nil _)
  have hcompact : (Json.object []).compact = "\x7b\x7d" := by decide
  rw [Plan.loadFile, htext]
  dsimp only
  rw [← hcompact, Plan.load_eq_ok_iff, Json.read_compact hfits]
  rfl

/-- An object without members is reported on, and only a strict run fails. Another file is not there. -/
theorem empty_plan_reported :
    (Plan.loadFile emptyObjectFile "plan.json").2 = .ok ⟨[]⟩ ∧
      (run emptyObjectFile none (.validate ⟨"plan.json", none, true, true⟩)).Reports
        ⟨"plan.json", none, true, true⟩ ((Setup.new.withSections none).build.validate ⟨[]⟩) ∧
      (run emptyObjectFile none (.validate ⟨"plan.json", none, true, true⟩)).status = 1 ∧
      (run emptyObjectFile none (.validate ⟨"plan.json", none, true, false⟩)).status = 0 ∧
      (run emptyObjectFile none (.validate ⟨"plan.json", some "list.json", true, false⟩)).Refused := by
  have hpenalty : ((Setup.new.withSections none).build.validate ⟨[]⟩).penalty = 20 := by decide
  have hmain := validate_refuses_or_reports emptyObjectFile none ⟨"plan.json", none, true, true⟩
  have hreports := hmain.2.2.1 none ⟨[]⟩ rfl loadFile_emptyObjectFile
  have hlist : SectionList.loadFile emptyObjectFile "list.json" =
      .error (.file "list.json" .notFound) := rfl
  refine ⟨loadFile_emptyObjectFile, hreports true true, ?_, ?_, ?_⟩
  · rw [(hreports true true).status, hpenalty]
    decide
  · rw [(hreports true false).status]
    decide
  · exact (validate_refuses_or_reports _ _ _).1.2 (.inl ⟨"list.json", _, rfl, hlist⟩)

end Command

end PlanAudit
