import PlanAudit.Proofs.Decimal.Digits
import PlanAudit.Proofs.RuleChecks
import PlanAudit.Proofs.SortedKeys

/-! The phases section can be an array, an object that holds the array, or an object with a key for
each phase. For the tasks of a plan this makes no difference. -/
namespace PlanAudit

/-- The plan with the given content as its phases section. All else stays as it is. -/
def Plan.withPhases (plan : Plan) (content : Json) : Plan :=
  ⟨insertKey sectionsKey (.object (insertKey phasesKey content (plan.sections?.getD []))) plan.root⟩

def numberedPhases (phases : List Json) : List (String × Json) :=
  phases.mapIdx fun index phase => ("phase_" ++ toString (index + 1), phase)

/-- An object with a key for each phase. Like every object it holds its members by their keys, so
`phase_10` stands before `phase_2`. -/
def keyedSection (phases : List Json) : Json :=
  .object (sortKeys (numberedPhases phases))

private theorem natOfText?_toDigits {n : Nat} (h : n < wordLimit) :
    natOfText? (Nat.toDigits 10 n) = some n := by
  have hdigits := toDigits_isDigit n
  have hvalue : (Nat.toDigits 10 n).foldl (fun n c => 10 * n + (c.toNat - '0'.toNat)) 0 = n := by
    rw [← Nat.ofDigitChars_eq_foldl, Nat.ofDigitChars_ten_toDigits]
  have hwritten : (Nat.toDigits 10 n).isEmpty = false := by
    rw [List.isEmpty_eq_false_iff]
    exact Nat.toDigits_ne_nil
  unfold natOfText?
  split
  case h_1 rest heq =>
    have hplus := hdigits '+' (by rw [heq]; exact List.mem_cons_self)
    cases hplus
  case h_2 =>
    dsimp only
    rw [hvalue, hwritten, List.all_eq_true.2 hdigits, if_pos h]
    rfl

private theorem phaseSuffix?_numbered (n : Nat) :
    phaseSuffix? ("phase_" ++ toString n) = some (Nat.toDigits 10 n) := by
  rw [phaseSuffix?, String.toList_append, Nat.toString_eq_ofList_toDigits]
  simp [List.isPrefixOf?]

private theorem phaseRank_numbered {n : Nat} (h : n < wordLimit) :
    phaseRank ("phase_" ++ toString n) = n := by
  rw [phaseRank, phaseSuffix?_numbered, Option.bind_some, natOfText?_toDigits h, Option.getD_some]

theorem phaseLe_iff {a b : String × Json} :
    phaseLe a b = true ↔ phaseRank a.1 < phaseRank b.1 ∨
      phaseRank a.1 = phaseRank b.1 ∧ Text.before b.1 a.1 = false := by
  simp [phaseLe]

theorem phaseLe_trans (a b c : String × Json) (hab : phaseLe a b = true)
    (hbc : phaseLe b c = true) : phaseLe a c = true := by
  rw [phaseLe_iff] at hab hbc ⊢
  rcases hab with hab | ⟨hab, hba⟩
  · left
    omega
  rcases hbc with hbc | ⟨hbc, hcb⟩
  · left
    omega
  refine .inr ⟨hab.trans hbc, ?_⟩
  by_contra hca
  rw [Bool.not_eq_false] at hca
  cases hbc' : Text.before b.1 c.1 with
  | true =>
    rw [Text.before_trans hbc' hca] at hba
    cases hba
  | false =>
    rw [Text.before_total hbc' hcb, hca] at hba
    cases hba

theorem phaseLe_total (a b : String × Json) : (phaseLe a b || phaseLe b a) = true := by
  rw [Bool.or_eq_true, phaseLe_iff, phaseLe_iff]
  rcases Nat.lt_trichotomy (phaseRank a.1) (phaseRank b.1) with hlt | heq | hgt
  · exact .inl (.inl hlt)
  · cases hba : Text.before b.1 a.1 with
    | false => exact .inl (.inr ⟨heq, rfl⟩)
    | true =>
      refine .inr (.inr ⟨heq.symm, ?_⟩)
      by_contra hab
      rw [Bool.not_eq_false] at hab
      have hself := Text.before_trans hab hba
      rw [Text.before_irrefl] at hself
      cases hself
  · exact .inr (.inl hgt)

/-- Entries with keys of their own can be put into the order of phases in only one way. -/
theorem eq_of_perm_of_phaseLe {entries other : List (String × Json)}
    (hkeys : (entries.map Prod.fst).Nodup) (hother : other.Pairwise fun a b => phaseLe a b = true)
    (hentries : entries.Pairwise fun a b => phaseLe a b = true) (hperm : other.Perm entries) :
    other = entries := by
  refine hperm.eq_of_pairwise ?_ hother hentries
  intro a b ha hb hab hba
  have hsame : a.1 = b.1 := by
    rw [phaseLe_iff] at hab hba
    rcases hab with hab | ⟨hab, hbefore⟩
    · omega
    rcases hba with hba | ⟨_, hafter⟩
    · omega
    exact Text.before_total hafter hbefore
  exact List.inj_on_of_nodup_map hkeys (hperm.mem_iff.1 ha) hb hsame

section Numbered

variable {phases : List Json} (hcount : phases.length < wordLimit)

include hcount

/-- The numbers of the keys ascend, which makes the order strict. -/
theorem numberedPhases_pairwise : (numberedPhases phases).Pairwise fun a b =>
    phaseRank a.1 < phaseRank b.1 := by
  rw [List.pairwise_iff_getElem]
  intro i j hi hj hij
  unfold numberedPhases at hi hj ⊢
  rw [List.length_mapIdx] at hi hj
  rw [List.getElem_mapIdx, List.getElem_mapIdx]
  rw [phaseRank_numbered (by omega), phaseRank_numbered (by omega)]
  omega

private theorem numberedPhases_keys_nodup : ((numberedPhases phases).map Prod.fst).Nodup := by
  rw [List.Nodup, List.pairwise_map]
  refine (numberedPhases_pairwise hcount).imp fun {a b} hlt heq => ?_
  rw [heq] at hlt
  exact Nat.lt_irrefl _ hlt

/-- The order of the numbers is found again, whatever the order of the keys as texts is. -/
theorem keyedPhases_numbered (hobjects : ∀ phase ∈ phases, phase.isObject = true) :
    PhaseLayout.keyedPhases (sortKeys (numberedPhases phases)) = numberedPhases phases := by
  have hperm := sortKeys_perm (numberedPhases_keys_nodup hcount)
  have hall : (sortKeys (numberedPhases phases)).filter
      (fun entry => (phaseSuffix? entry.1).isSome && entry.2.isObject) =
        sortKeys (numberedPhases phases) := by
    rw [List.filter_eq_self]
    intro entry hentry
    obtain ⟨i, hi, rfl⟩ := List.mem_mapIdx.1 (hperm.mem_iff.1 hentry)
    rw [phaseSuffix?_numbered, hobjects _ (List.getElem_mem hi)]
    rfl
  have hsorted := List.pairwise_mergeSort phaseLe_trans phaseLe_total
    (sortKeys (numberedPhases phases))
  have hnumbered := numberedPhases_pairwise hcount
  unfold PhaseLayout.keyedPhases
  rw [hall]
  exact eq_of_perm_of_phaseLe (numberedPhases_keys_nodup hcount) hsorted
    (hnumbered.imp fun hlt => phaseLe_iff.2 (.inl hlt)) ((List.mergeSort_perm _ _).trans hperm)

/-- An object with a key for each phase has the phases that an array of them has. -/
theorem phases_keyedSection (hobjects : ∀ phase ∈ phases, phase.isObject = true) :
    (PhaseLayout.ofSection (some (keyedSection phases))).phases = phases := by
  have hperm := sortKeys_perm (numberedPhases_keys_nodup hcount)
  have hvalues : (numberedPhases phases).map Prod.snd = phases := by
    apply List.ext_getElem
    · rw [List.length_map, numberedPhases, List.length_mapIdx]
    · intro i hi hi'
      simp only [numberedPhases, List.getElem_map, List.getElem_mapIdx]
  have hplain : Json.Members.get? (sortKeys (numberedPhases phases)) "phases" = none := by
    refine List.lookup_eq_none_iff.2 fun entry hentry => ?_
    obtain ⟨i, hi, rfl⟩ := List.mem_mapIdx.1 (hperm.mem_iff.1 hentry)
    rw [bne_iff_ne]
    intro (heq : "phases" = "phase_" ++ toString (i + 1))
    have hsuffix := phaseSuffix?_numbered (i + 1)
    rw [← heq] at hsuffix
    cases hsuffix
  show (PhaseLayout.ofMembers (sortKeys (numberedPhases phases))).phases = phases
  unfold PhaseLayout.ofMembers
  rw [hplain, Option.bind_none, keyedPhases_numbered hcount hobjects]
  cases hnumbered : numberedPhases phases with
  | nil =>
    rw [hnumbered] at hvalues
    exact hvalues
  | cons entry entries =>
    rw [hnumbered] at hvalues
    exact hvalues

end Numbered

/-- The forms of the phases section that say the same: an array, an object that holds the array, and
an object with a key for each phase. -/
def phaseForms (phases : List Json) : List Json :=
  [.array phases, .object [("phases", .array phases)], keyedSection phases]

namespace Plan

variable (plan : Plan) (content : Json)

private theorem sections?_withPhases :
    (plan.withPhases content).sections? =
      some (insertKey phasesKey content (plan.sections?.getD [])) := by
  unfold sections? withPhases Json.Members.get?
  rw [lookup_insertKey, if_pos rfl]
  rfl

theorem section?_withPhases (name : String) :
    (plan.withPhases content).section? name =
      if name = phasesKey then some content else plan.section? name := by
  unfold section?
  rw [sections?_withPhases, Option.bind_some]
  unfold Json.Members.get?
  rw [lookup_insertKey]
  cases plan.sections? <;> rfl

/-- A section is a member of a member. -/
theorem section?_eq_bind (name : String) :
    plan.section? name = (plan.toJson.get? sectionsKey).bind (·.get? name) := by
  show ((plan.root.get? sectionsKey).bind Json.object?).bind _ = (plan.root.get? sectionsKey).bind _
  rw [Option.bind_assoc]
  refine Option.bind_congr fun value _ => ?_
  cases value <;> rfl

theorem flatTasks?_withPhases : (plan.withPhases content).flatTasks? = plan.flatTasks? := by
  unfold flatTasks?
  rw [section?_withPhases, if_neg (by decide)]

/-- Of the phases section only the list of phases counts for the tasks. -/
theorem population_withPhases_congr {content other : Json}
    (h : (PhaseLayout.ofSection (some content)).phases =
      (PhaseLayout.ofSection (some other)).phases) :
    (plan.withPhases content).population = (plan.withPhases other).population := by
  have htasks : (PhaseLayout.ofSection (some content)).tasks =
      (PhaseLayout.ofSection (some other)).tasks := by
    unfold PhaseLayout.tasks
    rw [h]
  unfold population phaseLayout
  rw [section?_withPhases, section?_withPhases, if_pos rfl, if_pos rfl, flatTasks?_withPhases,
    flatTasks?_withPhases, htasks]

end Plan

def Report.issuesOpening (report : Report) (phrase : String) : List Issue :=
  report.issues.filter fun issue => phrase.toList.isPrefixOf issue.message.toList

namespace Validator

def taskPhrases : List String :=
  ["Duplicate task ID", "Unknown dependency", "Circular dependency", "Task description"]

theorem issuesOpening_eq (validator : Validator) (plan : Plan) (name : String) {phrase : String}
    (hitem : Checklist.item? name = some (.beginning name phrase)) {found : List Finding}
    (hrule : validator.rule? plan name = some ([name], found)) :
    (validator.validate plan).issuesOpening phrase = found.map Finding.toIssue := by
  rw [← filter_issues_eq validator plan (Checklist.mem_of_item? hitem) (mem_of_rule? hrule)]
  refine List.filter_congr fun issue _ => ?_
  rw [Bool.eq_iff_iff, ChecklistItem.failedByMessage_beginning, List.isPrefixOf_iff_prefix]

def taskRules : List (String × (TaskPopulation → List Finding)) :=
  [("Duplicate task ID", Rule.repeatedIds), ("Unknown dependency", Rule.unknownDependencies),
   ("Circular dependency", Rule.circularDependencies), ("Task description", Rule.thinDescriptions)]

/-- The issues of a rule on tasks are those whose message begins with its phrase. -/
theorem issuesOpening_of_mem_taskRules (validator : Validator) (plan : Plan) {phrase : String}
    {rule : TaskPopulation → List Finding} (h : (phrase, rule) ∈ taskRules) :
    (validator.validate plan).issuesOpening phrase =
      (rule plan.population).map Finding.toIssue := by
  simp only [taskRules, List.mem_cons, List.not_mem_nil, or_false, Prod.mk.injEq] at h
  rcases h with ⟨rfl, rfl⟩ | ⟨rfl, rfl⟩ | ⟨rfl, rfl⟩ | ⟨rfl, rfl⟩
  · exact issuesOpening_eq validator plan "task_ids_unique" rfl rfl
  · exact issuesOpening_eq validator plan "dependencies_valid" rfl rfl
  · exact issuesOpening_eq validator plan "no_circular_dependencies" rfl rfl
  · exact issuesOpening_eq validator plan "task_descriptions_detailed" rfl rfl

/-- Issues about tasks go by the tasks alone. -/
theorem issuesOpening_congr (validator : Validator) {plan other : Plan}
    (h : plan.population = other.population) {phrase : String} (hphrase : phrase ∈ taskPhrases) :
    (validator.validate plan).issuesOpening phrase =
      (validator.validate other).issuesOpening phrase := by
  obtain ⟨⟨_, rule⟩, hrule, rfl⟩ : ∃ entry ∈ taskRules, entry.1 = phrase := List.mem_map.1 hphrase
  rw [issuesOpening_of_mem_taskRules validator plan hrule,
    issuesOpening_of_mem_taskRules validator other hrule, h]

/-- In whatever form the phases of a plan are written, its tasks are the same and come from the same
section, and so the issues about tasks are the same, too. -/
theorem phase_forms_interchangeable (validator : Validator) (plan : Plan) {phases : List Json}
    (hobjects : ∀ phase ∈ phases, phase.isObject = true) (hcount : phases.length < 2 ^ 64) :
    ∀ form ∈ phaseForms phases, ∀ other ∈ phaseForms phases,
      (plan.withPhases form).population = (plan.withPhases other).population ∧
      ∀ phrase ∈ taskPhrases,
        (validator.validate (plan.withPhases form)).issuesOpening phrase =
          (validator.validate (plan.withPhases other)).issuesOpening phrase := by
  have hphases : ∀ form ∈ phaseForms phases,
      (PhaseLayout.ofSection (some form)).phases = phases := by
    intro form hform
    simp only [phaseForms, List.mem_cons, List.not_mem_nil, or_false] at hform
    rcases hform with rfl | rfl | rfl
    · rfl
    · rfl
    · exact phases_keyedSection hcount hobjects
  intro form hform other hother
  have hpopulation : (plan.withPhases form).population = (plan.withPhases other).population := by
    apply Plan.population_withPhases_congr
    rw [hphases form hform, hphases other hother]
  exact ⟨hpopulation, fun phrase hphrase => issuesOpening_congr validator hpopulation hphrase⟩

def tenPhases : List Json :=
  (List.range 10).map fun n => .object [("tasks", .array [.string (toString n)])]

/-- The tenth phase has the second key, but its task stays the last one. -/
theorem tenth_phase_stays_last :
    let keyed := (Plan.mk []).withPhases (keyedSection tenPhases)
    let listed := (Plan.mk []).withPhases (.array tenPhases)
    (∀ phase ∈ tenPhases, phase.isObject = true) ∧ tenPhases.length < 2 ^ 64 ∧
      ((sortKeys (numberedPhases tenPhases)).map Prod.fst).take 2 = ["phase_1", "phase_10"] ∧
      listed.population.ids = ["0", "1", "2", "3", "4", "5", "6", "7", "8", "9"] ∧
      keyed.population = listed.population := by
  intro keyed listed
  have hobjects : ∀ phase ∈ tenPhases, phase.isObject = true := by decide
  have hcount : tenPhases.length < 2 ^ 64 := by decide
  have hforms := phase_forms_interchangeable ⟨[]⟩ ⟨[]⟩ hobjects hcount
    (keyedSection tenPhases) (by simp [phaseForms]) (.array tenPhases) (by simp [phaseForms])
  exact ⟨hobjects, hcount, by decide, by decide, hforms.1⟩

end Validator

end PlanAudit
