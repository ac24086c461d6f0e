import Mathlib.Data.List.DropRight
import PlanAudit.Proofs.PhaseIssues
import PlanAudit.Proofs.SilentRules

/-! A text among the tasks of a phase declares an id. It stands for a record with that id, but without
the blanks at its ends, while records and dependencies keep theirs. -/
namespace PlanAudit

namespace Text

/-- A text is kept as it is exactly if neither end of it is blank. -/
theorem trim_eq_self_iff (text : List Char) :
    trim text = text ↔
      ∀ c, c ∈ text.head? ∨ c ∈ text.getLast? → isBlank c = false := by
  have htrim : trim text = (text.dropWhile isBlank).rdropWhile isBlank := rfl
  have hfront : text.dropWhile isBlank = text ↔ ∀ c ∈ text.head?, isBlank c = false := by
    cases text with
    | nil => simp
    | cons c rest => simp [List.dropWhile_eq_self_iff]
  have hback : text.rdropWhile isBlank = text ↔ ∀ c ∈ text.getLast?, isBlank c = false := by
    rw [List.rdropWhile_eq_self_iff]
    constructor
    · intro h c hc
      obtain ⟨hne, rfl⟩ := List.mem_getLast?_eq_getLast hc
      simpa using h hne
    · intro h hne
      simpa using h _ (List.getLast?_eq_some_getLast hne)
  have hboth : trim text = text ↔
      text.dropWhile isBlank = text ∧ text.rdropWhile isBlank = text := by
    rw [htrim]
    constructor
    · intro h
      have hlength := (List.rdropWhile_prefix isBlank (text.dropWhile isBlank)).length_le
      rw [h] at hlength
      have hwhole := (List.dropWhile_suffix isBlank).eq_of_length_le hlength
      exact ⟨hwhole, by rwa [hwhole] at h⟩
    · rintro ⟨hdrop, hrdrop⟩
      rw [hdrop, hrdrop]
  rw [hboth, hfront, hback]
  simp only [or_imp, forall_and]

end Text

namespace Json

/-- An object becomes another one by a change of its member with the key. -/
inductive ChangesMember (key : String) (change : Json → Json → Prop) : Json → Json → Prop where
  | intro {front back : Members} {old new : Json} : (∀ entry ∈ front, entry.1 ≠ key) →
    change old new →
    ChangesMember key change (.object (front ++ (key, old) :: back))
      (.object (front ++ (key, new) :: back))

inductive ChangesItem (change : Json → Json → Prop) : Json → Json → Prop where
  | intro {front back : List Json} {old new : Json} : change old new →
    ChangesItem change (.array (front ++ old :: back)) (.array (front ++ new :: back))

/-- A phases section becomes another one by a change of one phase, whatever form the section has. -/
inductive ChangesPhase (change : Json → Json → Prop) : Json → Json → Prop where
  | listed {a b : Json} : ChangesItem change a b → ChangesPhase change a b
  | held {a b : Json} : ChangesMember "phases" (ChangesItem change) a b → ChangesPhase change a b
  | keyed {a b : Json} {key : String} : (phaseSuffix? key).isSome → ChangesMember key change a b →
    ChangesPhase change a b

namespace ChangesMember

variable {key : String} {change : Json → Json → Prop} {a b : Json}

theorem get?_key (h : ChangesMember key change a b) :
    ∃ old new, change old new ∧ a.get? key = some old ∧ b.get? key = some new := by
  obtain @⟨front, back, old, new, hfront, hchange⟩ := h
  have hget : ∀ value, Members.get? (front ++ (key, value) :: back) key = some value := by
    intro value
    refine List.lookup_eq_some_iff.2 ⟨front, back, rfl, fun entry hentry => ?_⟩
    simpa using (hfront entry hentry).symm
  exact ⟨old, new, hchange, hget old, hget new⟩

theorem get?_of_ne (h : ChangesMember key change a b) {other : String} (hne : other ≠ key) :
    a.get? other = b.get? other := by
  obtain @⟨front, back, old, new, _, _⟩ := h
  have hget : ∀ value, Members.get? (front ++ (key, value) :: back) other =
      ((front.lookup other).or (back.lookup other)) := by
    intro value
    rw [Members.get?, List.lookup_append, lookup_cons_eq_ite, if_neg hne]
  exact (hget old).trans (hget new).symm

theorem only {old new : Json} (h : change old new) :
    ChangesMember key change (.object [(key, old)]) (.object [(key, new)]) :=
  @intro key change [] [] old new (by simp) h

end ChangesMember

theorem ChangesItem.first {change : Json → Json → Prop} {old new : Json} (h : change old new)
    (items : List Json) : ChangesItem change (.array (old :: items)) (.array (new :: items)) :=
  @intro change [] items old new h

end Json

/-- What counts of a phase for the tasks of a plan: that it is one, and the tasks it declares. -/
def SameTasks (phase other : Json) : Prop :=
  phase.isObject = other.isObject ∧ phaseTasks phase = phaseTasks other

/-- An entry may be replaced by one that is read as the same task. -/
theorem sameTasks_of_changesMember {change : Json → Json → Prop}
    (hchange : ∀ old new, change old new → Task.ofJson? old = Task.ofJson? new) {phase other : Json}
    (h : Json.ChangesMember "tasks" (Json.ChangesItem change) phase other) :
    SameTasks phase other := by
  obtain ⟨entries, changed, hitem, hentries, hchanged⟩ := h.get?_key
  obtain @⟨front, back, old, new, hentry⟩ := hitem
  refine ⟨by cases h; rfl, ?_⟩
  unfold phaseTasks
  rw [hentries, hchanged]
  simp only [Option.bind_some, Json.array?, Option.getD_some, List.filterMap_append,
    List.filterMap_cons, hchange old new hentry]

namespace PhaseLayout

/-- The order of phases goes by their keys: a change of a phase leaves it in its place. -/
theorem keyedPhases_tasks_eq {front back : Json.Members} {key : String} {phase other : Json}
    (h : SameTasks phase other) :
    (keyedPhases (front ++ (key, phase) :: back)).map (phaseTasks ∘ Prod.snd) =
      (keyedPhases (front ++ (key, other) :: back)).map (phaseTasks ∘ Prod.snd) := by
  have hkeys : ∀ members : Json.Members, (keyedPhases members).map (Prod.map id phaseTasks) =
      ((members.filter fun entry => (phaseSuffix? entry.1).isSome && entry.2.isObject).map
        (Prod.map id phaseTasks)).mergeSort fun a b => phaseLe (a.1, .null) (b.1, .null) := by
    intro members
    exact List.map_mergeSort fun _ _ _ _ => rfl
  have hpairs : (keyedPhases (front ++ (key, phase) :: back)).map (Prod.map id phaseTasks) =
      (keyedPhases (front ++ (key, other) :: back)).map (Prod.map id phaseTasks) := by
    rw [hkeys, hkeys]
    simp only [List.filter_append, List.filter_cons, h.1]
    split_ifs <;> simp [h.2]
  have htasks := congrArg (List.map Prod.snd) hpairs
  rw [List.map_map, List.map_map] at htasks
  exact htasks

private theorem tasks_ofMembers_eq {members changed : Json.Members}
    (hheld : members.get? "phases" = changed.get? "phases")
    (hkeyed : (keyedPhases members).map (phaseTasks ∘ Prod.snd) =
      (keyedPhases changed).map (phaseTasks ∘ Prod.snd)) :
    (ofMembers members).tasks = (ofMembers changed).tasks := by
  cases hmembers : (members.get? "phases").bind Json.array? with
  | some phases =>
    have hchanged : (changed.get? "phases").bind Json.array? = some phases := by
      rw [← hheld, hmembers]
    unfold ofMembers
    rw [hmembers, hchanged]
  | none =>
    have hchanged : (changed.get? "phases").bind Json.array? = none := by
      rw [← hheld, hmembers]
    rw [tasks_eq_flatMap, tasks_eq_flatMap, phases_ofMembers hmembers, phases_ofMembers hchanged]
    simp only [List.flatMap_def, List.map_map, hkeyed]

/-- A change of one phase that keeps its tasks keeps the tasks of the section. -/
theorem tasks_ofSection_eq {change : Json → Json → Prop}
    (hchange : ∀ phase other, change phase other → SameTasks phase other) {content changed : Json}
    (h : Json.ChangesPhase change content changed) :
    (ofSection (some content)).tasks = (ofSection (some changed)).tasks := by
  have hitems : ∀ {items others : Json}, Json.ChangesItem change items others →
      (ofSection (some items)).tasks = (ofSection (some others)).tasks := by
    intro items others hitem
    obtain @⟨front, back, phase, other, hphase⟩ := hitem
    simp only [tasks_eq_flatMap, ofSection, phases, List.flatMap_append, List.flatMap_cons,
      (hchange phase other hphase).2]
  cases h with
  | listed hitem => exact hitems hitem
  | held hmember =>
    obtain ⟨items, others, hitem, hheld, hother⟩ := hmember.get?_key
    have hsame := hitems hitem
    cases hitem
    cases hmember
    rw [ofSection, ofSection, ofMembers_of_array hheld, ofMembers_of_array hother]
    exact hsame
  | @keyed key hkey hmember =>
    have hne : "phases" ≠ key := by
      rintro rfl
      cases hkey
    have hheld := hmember.get?_of_ne hne
    obtain @⟨front, back, phase, other, _, hphase⟩ := hmember
    exact tasks_ofMembers_eq hheld (keyedPhases_tasks_eq (hchange phase other hphase))

end PhaseLayout

namespace Plan

/-- Somewhere in a phase one entry of the list of tasks is replaced, and nothing else changes. -/
def ReplacesTask (plan : Plan) (old new : Json) (other : Plan) : Prop :=
  Json.ChangesMember sectionsKey (Json.ChangesMember phasesKey (Json.ChangesPhase
    (Json.ChangesMember "tasks" (Json.ChangesItem fun entry changed => entry = old ∧ changed = new))))
    plan.toJson other.toJson

/-- The population goes by what the entries are read as. -/
theorem ReplacesTask.population_eq {plan other : Plan} {old new : Json}
    (h : plan.ReplacesTask old new other) (hsame : Task.ofJson? old = Task.ofJson? new) :
    plan.population = other.population := by
  obtain ⟨sections, changed, hsections, hplan, hother⟩ := h.get?_key
  obtain ⟨content, replaced, hphase, hcontent, hreplaced⟩ := hsections.get?_key
  have hflat : plan.flatTasks? = other.flatTasks? := by
    unfold flatTasks?
    rw [section?_eq_bind, section?_eq_bind, hplan, hother, Option.bind_some, Option.bind_some,
      hsections.get?_of_ne (by decide)]
  have htasks : plan.phaseLayout.tasks = other.phaseLayout.tasks := by
    unfold phaseLayout
    rw [section?_eq_bind, section?_eq_bind, hplan, hother, Option.bind_some, Option.bind_some,
      hcontent, hreplaced]
    refine PhaseLayout.tasks_ofSection_eq (fun phase other hentry => ?_) hphase
    refine sameTasks_of_changesMember (fun entry changed heq => ?_) hentry
    rw [heq.1, heq.2, hsame]
  unfold population
  rw [htasks, hflat]

end Plan

def idRecord (id : String) : Json :=
  .object [("id", .string id)]

namespace Validator

/-- Wherever the text is an entry of a phase, a record with the id may stand in its place: no validator
raises other issues about ids and dependencies. -/
def Shorthand (entry id : String) : Prop :=
  ∀ (validator : Validator) (plan other : Plan),
    plan.ReplacesTask (.string entry) (idRecord id) other →
    ∀ phrase ∈ ["Duplicate task ID", "Unknown dependency", "Circular dependency"],
      (validator.validate plan).issuesOpening phrase =
        (validator.validate other).issuesOpening phrase

def onePhase (entry : Json) (others : List Json) : Plan :=
  ⟨[(sectionsKey, .object [(phasesKey, .array [.object [("tasks", .array (entry :: others))]])])]⟩

private theorem population_onePhase {entry : Json} {task : Task}
    (h : Task.ofJson? entry = some task)
    (others : List Json) :
    (onePhase entry others).population = ⟨phasesKey, task :: others.filterMap Task.ofJson?⟩ := by
  have hlayout : (onePhase entry others).phaseLayout =
      .array [.object [("tasks", .array (entry :: others))]] := rfl
  have htasks : (onePhase entry others).phaseLayout.tasks = task :: others.filterMap Task.ofJson? := by
    rw [hlayout, PhaseLayout.tasks_eq_flatMap, PhaseLayout.phases, List.flatMap_singleton]
    exact List.filterMap_cons_some h
  unfold Plan.population
  rw [htasks]

private theorem replacesTask_onePhase (old new : Json) (others : List Json) :
    (onePhase old others).ReplacesTask old new (onePhase new others) := by
  unfold Plan.ReplacesTask onePhase Plan.toJson
  apply Json.ChangesMember.only
  apply Json.ChangesMember.only
  apply Json.ChangesPhase.listed
  apply Json.ChangesItem.first
  apply Json.ChangesMember.only
  exact .first ⟨rfl, rfl⟩ others

def dependent (id : String) : Json :=
  .object [("depends_on", .string id)]

private theorem issuesOpening_unknown (validator : Validator) (plan : Plan) :
    (validator.validate plan).issuesOpening "Unknown dependency" =
      (Rule.unknownDependencies plan.population).map Finding.toIssue :=
  issuesOpening_of_mem_taskRules validator plan (by simp [taskRules])

/-- A task that depends on the only other one has to give its id. -/
theorem unknown_onePhase_eq_nil_iff (validator : Validator) (declared id : String) :
    (validator.validate (onePhase (idRecord declared) [dependent id])).issuesOpening
      "Unknown dependency" = [] ↔ id = declared := by
  have hrecord : Task.ofJson? (idRecord declared) = some ⟨some declared, none, [], none⟩ := rfl
  have hdependent : [dependent id].filterMap Task.ofJson? = [⟨none, none, [id], none⟩] := rfl
  rw [issuesOpening_unknown, List.map_eq_nil_iff, Rule.unknownDependencies_eq_nil_iff,
    population_onePhase hrecord, hdependent]
  simp [TaskPopulation.ids]

/-- A text that is read as a record can be replaced by this record alone. -/
theorem shorthand_iff {entry declared : String}
    (h : Task.ofJson? (.string entry) = Task.ofJson? (idRecord declared)) (id : String) :
    Shorthand entry id ↔ id = declared := by
  constructor
  · intro hshort
    -- The text declares what the record with the right id declares, so the dependency on it is known.
    have hbare := (replacesTask_onePhase (.string entry) (idRecord declared)
      [dependent declared]).population_eq h
    have hknown := (unknown_onePhase_eq_nil_iff ⟨[]⟩ declared declared).2 rfl
    rw [← issuesOpening_congr ⟨[]⟩ hbare (by simp [taskPhrases])] at hknown
    have hsame := hshort ⟨[]⟩ _ _ (replacesTask_onePhase (.string entry) (idRecord id)
      [dependent declared]) "Unknown dependency" (by simp)
    rw [hsame, unknown_onePhase_eq_nil_iff] at hknown
    exact hknown.symm
  · rintro rfl validator plan other hreplaces phrase hphrase
    exact issuesOpening_congr validator (hreplaces.population_eq h)
      (List.mem_append_left ["Task description"] hphrase)

/-- The id of the record is the text without the blanks at its ends, so the text itself will do
exactly if it has none there. -/
theorem bare_entry_shorthand_iff (entry : String) :
    (∀ id, Shorthand entry id ↔ id = String.ofList (Text.trim entry.toList)) ∧
    (Shorthand entry entry ↔
      ∀ c, c ∈ entry.toList.head? ∨ c ∈ entry.toList.getLast? → Text.isBlank c = false) := by
  have hread : Task.ofJson? (.string entry) =
      Task.ofJson? (idRecord (String.ofList (Text.trim entry.toList))) := rfl
  refine ⟨shorthand_iff hread, ?_⟩
  rw [shorthand_iff hread, ← Text.trim_eq_self_iff, ← String.toList_inj, String.toList_ofList]
  exact eq_comm

/-- The text and the record declare the same id a second time, and depending on it leads back. -/
theorem entry_repeated_in_either_form :
    let others : List Json := [.object [("depends_on", .string "A"), ("id", .string "A")]]
    (onePhase (.string "A") others).ReplacesTask (.string "A") (idRecord "A")
      (onePhase (idRecord "A") others) ∧
    ((Setup.new.build.validate (onePhase (.string "A") others)).issuesOpening
      "Duplicate task ID").map Issue.message = ["Duplicate task ID: A"] ∧
    ∀ phrase ∈ ["Duplicate task ID", "Unknown dependency", "Circular dependency"],
      (Setup.new.build.validate (onePhase (.string "A") others)).issuesOpening phrase =
        (Setup.new.build.validate (onePhase (idRecord "A") others)).issuesOpening phrase := by
  intro others
  generalize Setup.new.build = validator
  have hreplaces := replacesTask_onePhase (.string "A") (idRecord "A") others
  have hshort : Shorthand "A" "A" := ((bare_entry_shorthand_iff "A").1 "A").2 (by decide)
  refine ⟨hreplaces, ?_, hshort validator _ _ hreplaces⟩
  have hrule : ("Duplicate task ID", Rule.repeatedIds) ∈ taskRules := by simp [taskRules]
  have hids : (onePhase (.string "A") others).population.ids = ["A", "A"] := rfl
  have hrepeats : Rule.repeats ∅ ["A", "A"] = ["A"] := by simp [Rule.repeats]
  rw [issuesOpening_of_mem_taskRules validator _ hrule, Rule.repeatedIds, hids, hrepeats]
  rfl

/-- With blanks at its ends the text declares another id than the record: a task that gives the id as it
is written depends on nothing. -/
theorem blanks_part_entry_from_record :
    let others : List Json := [.object [("depends_on", .array [.string " A "]), ("id", .string "B")]]
    (onePhase (.string " A ") others).ReplacesTask (.string " A ") (idRecord " A ")
      (onePhase (idRecord " A ") others) ∧
    ((Setup.new.build.validate (onePhase (.string " A ") others)).issuesOpening
      "Unknown dependency").map Issue.message =
        ["Unknown dependency: B depends on  A , which is not declared"] ∧
    (Setup.new.build.validate (onePhase (idRecord " A ") others)).issuesOpening
      "Unknown dependency" = [] := by
  intro others
  generalize Setup.new.build = validator
  have hbare : (onePhase (.string " A ") others).population =
      ⟨phasesKey, [⟨some "A", none, [], none⟩, ⟨some "B", none, [" A "], none⟩]⟩ := rfl
  have hrecord : (onePhase (idRecord " A ") others).population =
      ⟨phasesKey, [⟨some " A ", none, [], none⟩, ⟨some "B", none, [" A "], none⟩]⟩ := rfl
  have hunknown : Rule.unknownDependencies (onePhase (.string " A ") others).population =
      [.unknownDependency phasesKey "B" " A "] := by
    rw [hbare]
    simp [Rule.unknownDependencies, TaskPopulation.ids, Task.label]
  have hknown : Rule.unknownDependencies (onePhase (idRecord " A ") others).population = [] := by
    rw [hrecord]
    simp [Rule.unknownDependencies, TaskPopulation.ids]
  refine ⟨replacesTask_onePhase _ _ _, ?_, ?_⟩
  · rw [issuesOpening_unknown, hunknown]
    rfl
  · rw [issuesOpening_unknown, hknown]
    rfl

end Validator

end PlanAudit
