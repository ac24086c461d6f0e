import Mathlib.Data.List.Count
import PlanAudit.Proofs.Dependency.TaskGraph
import PlanAudit.Proofs.PhaseForms

/-! Which ids are declared. The rules on ids keep a set of their own, the graph a list and a map,
and they agree: the graph lists every declared id once, every further declaration is reported, and so
is every dependency on an id that the graph does not list. -/
namespace PlanAudit

namespace DependencyGraph

private theorem eraseDups_concat (ids : List String) (id : String) :
    (ids ++ [id]).eraseDups = if id ∈ ids then ids.eraseDups else ids.eraseDups ++ [id] := by
  rw [List.eraseDups_append]
  split_ifs with h
  · simp [List.removeAll, h]
  · simp [List.removeAll, h, List.eraseDups_cons]

/-- The graph lists the ids in the order of their first declaration. -/
theorem toList_nodes_ofTasks (tasks : List Task) :
    (ofTasks tasks).nodes.toList = (tasks.filterMap Task.id).eraseDups := by
  induction tasks using List.reverseRecOn with
  | nil => rfl
  | append_singleton tasks task ih =>
    rw [ofTasks_concat, (consistent_ofTasks tasks).nodes_add, List.filterMap_append]
    cases hid : task.id with
    | none => simp only [List.filterMap_cons, List.filterMap_nil, hid, List.append_nil, ih,
        Option.elim_none]
    | some id =>
      simp only [List.filterMap_cons, List.filterMap_nil, hid, eraseDups_concat, ← ih,
        Option.elim_some, ← mem_nodes_iff_mem_ids]
      split_ifs with hdeclared
      · rfl
      · exact Array.toList_push

theorem WellFormed.dependencies_eq_nil {g : DependencyGraph} (hg : g.WellFormed) {id : String}
    (h : id ∉ g.nodes) : g.dependencies id = [] := by
  rw [List.eq_nil_iff_forall_not_mem]
  intro target htarget
  exact h (hg.declared htarget)

end DependencyGraph

namespace Rule

/-- Of the declarations of an id all are reported, except the first one if the id is new. -/
theorem count_repeats (seen : Std.HashSet String) (ids : List String) (id : String) :
    (repeats seen ids).count id = ids.count id - if id ∈ seen then 0 else 1 := by
  induction ids generalizing seen with
  | nil => simp [repeats]
  | cons own ids ih =>
    rw [repeats]
    by_cases hseen : own ∈ seen
    · rw [if_pos (Std.HashSet.contains_iff_mem.2 hseen), List.count_cons, List.count_cons, ih]
      by_cases heq : own = id
      · subst heq
        simp [hseen]
      · simp [heq]
    · rw [if_neg (by simpa using hseen), List.count_cons, ih]
      by_cases heq : own = id
      · subst heq
        simp [hseen]
      · simp [heq]

/-- The graph lists the first declarations, and the others are reported. -/
theorem ids_perm (population : TaskPopulation) :
    population.ids.Perm
      ((DependencyGraph.ofTasks population.tasks).nodes.toList ++ repeats ∅ population.ids) := by
  have hnodup := (DependencyGraph.wellFormed_ofTasks population.tasks).nodes_nodup
  rw [List.perm_iff_count]
  intro id
  rw [List.count_append, count_repeats, if_neg Std.HashSet.not_mem_empty]
  by_cases hid : id ∈ population.ids
  · have hnode : id ∈ (DependencyGraph.ofTasks population.tasks).nodes.toList :=
      Array.mem_toList_iff.2 (DependencyGraph.mem_nodes_iff_mem_ids.2 hid)
    have hpos := List.count_pos_iff.2 hid
    rw [List.count_eq_one_of_mem hnodup hnode]
    omega
  · have hnode : id ∉ (DependencyGraph.ofTasks population.tasks).nodes.toList := by
      rw [Array.mem_toList_iff]
      exact fun h => hid (DependencyGraph.mem_nodes_iff_mem_ids.1 h)
    rw [List.count_eq_zero_of_not_mem hid, List.count_eq_zero_of_not_mem hnode]

theorem length_repeats_add (population : TaskPopulation) :
    (repeats ∅ population.ids).length +
      (DependencyGraph.ofTasks population.tasks).nodes.size = population.ids.length := by
  have hlength := (ids_perm population).length_eq
  have hnodes : (DependencyGraph.ofTasks population.tasks).nodes.toList.length =
      (DependencyGraph.ofTasks population.tasks).nodes.size := Array.length_toList
  rw [List.length_append] at hlength
  omega

/-- A dependency is unknown exactly if the graph does not list its id. -/
theorem unknownDependencies_eq (population : TaskPopulation) :
    unknownDependencies population = population.tasks.flatMap fun task =>
      (task.dependsOn.filter (· ∉ (DependencyGraph.ofTasks population.tasks).nodes)).map
        (.unknownDependency population.area task.label) := by
  unfold unknownDependencies
  refine congrArg (List.flatMap · population.tasks) ?_
  funext task
  refine congrArg (List.map _) (List.filter_congr fun target _ => ?_)
  simp only [DependencyGraph.mem_nodes_iff_mem_ids, TaskPopulation.ids,
    Std.HashSet.contains_ofList, List.contains_eq_mem, decide_not]

end Rule

/-- Issues tell findings apart that fail different items of the checklist. -/
theorem Finding.failedChecks_eq_of_toIssue_eq {a b : Finding} (h : a.toIssue = b.toIssue)
    (ha : a.Regular) (hb : b.Regular) : a.failedChecks = b.failedChecks := by
  have hmessage : a.message = b.message := congrArg Issue.message h
  rw [← Checklist.failedNames_message ha, hmessage, Checklist.failedNames_message hb]

def TaskPopulation.idIssues (population : TaskPopulation) : List Issue :=
  (Rule.repeatedIds population ++ Rule.unknownDependencies population).map Finding.toIssue

namespace TaskPopulation

open DependencyGraph

variable (population : TaskPopulation)

theorem idIssues_eq : population.idIssues =
    (Rule.repeats ∅ population.ids).map (Finding.toIssue ∘ .repeatedId population.area) ++
      population.tasks.flatMap fun task =>
        (task.dependsOn.filter (· ∉ (ofTasks population.tasks).nodes)).map
          (Finding.toIssue ∘ .unknownDependency population.area task.label) := by
  rw [idIssues, List.map_append, Rule.repeatedIds, List.map_map, Rule.unknownDependencies_eq,
    List.map_flatMap]
  simp only [List.map_map]

private theorem repeatedId_toIssue_injective (area : String) :
    Function.Injective (Finding.toIssue ∘ .repeatedId area) := by
  intro id other h
  have hmessage : "Duplicate task ID: " ++ id = "Duplicate task ID: " ++ other :=
    congrArg Issue.message h
  simpa using hmessage

/-- An id is reported once for every declaration but the first. -/
theorem count_idIssues (id : String) :
    population.idIssues.count (Finding.repeatedId population.area id).toIssue =
      population.ids.count id - 1 := by
  have hunknown : (population.tasks.flatMap fun task =>
      (task.dependsOn.filter (· ∉ (ofTasks population.tasks).nodes)).map
        (Finding.toIssue ∘ .unknownDependency population.area task.label)).count
          (Finding.repeatedId population.area id).toIssue = 0 := by
    rw [List.count_eq_zero]
    intro hmem
    obtain ⟨task, _, hmem⟩ := List.mem_flatMap.1 hmem
    obtain ⟨target, _, hissue⟩ := List.mem_map.1 hmem
    have hsame : (Finding.unknownDependency population.area task.label target).toIssue =
        (Finding.repeatedId population.area id).toIssue := hissue
    have hchecks := Finding.failedChecks_eq_of_toIssue_eq hsame trivial trivial
    simp [Finding.failedChecks] at hchecks
  have hinjective := repeatedId_toIssue_injective population.area
  have hrepeated := List.count_map_of_injective (Rule.repeats ∅ population.ids) _ hinjective id
  rw [Function.comp_apply] at hrepeated
  rw [idIssues_eq, List.count_append, hunknown, hrepeated, Rule.count_repeats,
    if_neg Std.HashSet.not_mem_empty, Nat.add_zero]

end TaskPopulation

section Neighbours

variable {p q : Issue → Bool} {front first second back : List Issue}

/-- If a test picks out one part of a list, it holds of nothing in the other parts. -/
theorem filter_eq_nil_of_filter_append (h : (front ++ first ++ back).filter p = first) :
    front.filter p = [] ∧ first.filter p = first ∧ back.filter p = [] := by
  have hown : first.filter p = first := by
    rw [List.filter_eq_self]
    intro issue hissue
    rw [← h] at hissue
    exact (List.mem_filter.1 hissue).2
  have hlength := congrArg List.length h
  simp only [List.filter_append, List.length_append, hown] at hlength
  refine ⟨List.length_eq_zero_iff.1 ?_, hown, List.length_eq_zero_iff.1 ?_⟩
  · omega
  · omega

private theorem filter_or_eq_nil {part : List Issue} (hp : part.filter p = [])
    (hq : part.filter q = []) :
    part.filter (fun issue => p issue || q issue) = [] := by
  rw [List.filter_eq_nil_iff] at hp hq ⊢
  intro issue hissue
  rw [Bool.or_eq_true]
  exact not_or.2 ⟨hp issue hissue, hq issue hissue⟩

/-- Two tests that pick out neighbouring parts of a list pick out both parts together. -/
theorem filter_or_eq_append (hp : (front ++ (first ++ second) ++ back).filter p = first)
    (hq : (front ++ (first ++ second) ++ back).filter q = second) :
    (front ++ (first ++ second) ++ back).filter (fun issue => p issue || q issue) =
      first ++ second := by
  have hfirst : (front ++ first ++ (second ++ back)).filter p = first := by
    simpa only [List.append_assoc] using hp
  have hsecond : (front ++ first ++ second ++ back).filter q = second := by
    simpa only [List.append_assoc] using hq
  obtain ⟨hfrontP, hfirstP, hrestP⟩ := filter_eq_nil_of_filter_append hfirst
  obtain ⟨hrestQ, hsecondQ, hbackQ⟩ := filter_eq_nil_of_filter_append hsecond
  rw [List.filter_append, List.append_eq_nil_iff] at hrestP hrestQ
  have hboth : (first ++ second).filter (fun issue => p issue || q issue) = first ++ second := by
    rw [List.filter_eq_self] at hfirstP hsecondQ ⊢
    intro issue hissue
    rcases List.mem_append.1 hissue with hissue | hissue
    · rw [hfirstP issue hissue, Bool.true_or]
    · rw [hsecondQ issue hissue, Bool.or_true]
  rw [List.filter_append, List.filter_append, hboth, filter_or_eq_nil hfrontP hrestQ.1,
    filter_or_eq_nil hrestP.2 hbackQ, List.nil_append, List.append_nil]

end Neighbours

namespace Validator

theorem exists_issues_eq_append (validator : Validator) (plan : Plan) :
    ∃ front back, validator.issues plan = front ++ plan.population.idIssues ++ back := by
  -- the rules on ids follow the first three rules
  refine ⟨((validator.rules plan).take 3).flatMap (·.2.map Finding.toIssue),
    ((validator.rules plan).drop 5).flatMap (·.2.map Finding.toIssue), ?_⟩
  rw [issues_eq_map_findings, findings_eq_flatMap_rules, List.map_flatMap]
  simp [rules, TaskPopulation.idIssues]

/-- The issues about ids stand together in the report. -/
theorem filter_issues_idIssues (validator : Validator) (plan : Plan) :
    (validator.validate plan).issues.filter (fun issue =>
      "Duplicate task ID".toList.isPrefixOf issue.message.toList ||
        "Unknown dependency".toList.isPrefixOf issue.message.toList) =
      plan.population.idIssues := by
  have hrepeated := issuesOpening_of_mem_taskRules validator plan List.mem_cons_self
  have hunknown := issuesOpening_of_mem_taskRules validator plan
    (List.mem_cons_of_mem _ List.mem_cons_self)
  obtain ⟨front, back, hissues⟩ := exists_issues_eq_append validator plan
  have hreport : (validator.validate plan).issues = front ++ plan.population.idIssues ++ back :=
    hissues
  rw [Report.issuesOpening, hreport, TaskPopulation.idIssues, List.map_append] at hrepeated hunknown
  rw [hreport, TaskPopulation.idIssues, List.map_append]
  exact filter_or_eq_append hrepeated hunknown

end Validator

open DependencyGraph

/-- The graph lists the ids that the rules take for declared, and its dependencies are those of the
tasks. -/
theorem id_rules_agree_with_graph (population : TaskPopulation) :
    let g := ofTasks population.tasks
    let duplicate (id : String) : Issue :=
      ⟨.critical, population.area, s!"Duplicate task ID: {id}",
        s!"Give every task a unique ID; {id} is declared more than once"⟩
    let unknown (task : Task) (target : String) : Issue :=
      ⟨.critical, population.area,
        s!"Unknown dependency: {task.label} depends on {target}, which is not declared",
        s!"Declare {target} or remove it from depends_on"⟩
    g.nodes.toList = population.ids.eraseDups ∧
    (∀ id, g.dependencies id =
      (population.tasks.filter (·.id = some id)).flatMap Task.dependsOn) ∧
    (∀ id, id ∉ g.nodes → g.dependencies id = []) ∧
    (∃ repeated : List String,
      population.idIssues = repeated.map duplicate ++ (population.tasks.flatMap fun task =>
        (task.dependsOn.filter (· ∉ g.nodes)).map (unknown task)) ∧
      repeated.length + g.nodes.size = population.ids.length) ∧
    (∀ id, population.idIssues.count (duplicate id) = population.ids.count id - 1) ∧
    ∀ (validator : Validator) (plan : Plan),
      (validator.validate plan).issues.filter (fun issue =>
        "Duplicate task ID".toList.isPrefixOf issue.message.toList ||
          "Unknown dependency".toList.isPrefixOf issue.message.toList) =
        plan.population.idIssues := by
  intro g duplicate unknown
  refine ⟨toList_nodes_ofTasks population.tasks, dependencies_ofTasks population.tasks,
    fun id hid => (wellFormed_ofTasks population.tasks).dependencies_eq_nil hid,
    ⟨Rule.repeats ∅ population.ids, population.idIssues_eq, Rule.length_repeats_add population⟩,
    population.count_idIssues, Validator.filter_issues_idIssues⟩

/-- The first id has three tasks and depends on an id that a later task declares, on one that no
task declares and on one that a task without an id depends on, too. -/
def mixedPopulation : TaskPopulation where
  area := phasesKey
  tasks := [⟨some "A", none, ["B", "X"], none⟩, ⟨none, none, ["X", "A", "X"], none⟩,
    ⟨some "A", none, ["Y"], none⟩, ⟨some "B", none, [], none⟩, ⟨some "A", none, [], none⟩]

theorem mixed_ids_agree :
    (ofTasks mixedPopulation.tasks).nodes.toList = ["A", "B"] ∧
      (ofTasks mixedPopulation.tasks).dependencies "A" = ["B", "X", "Y"] ∧
      "X" ∉ (ofTasks mixedPopulation.tasks).nodes ∧
      (ofTasks mixedPopulation.tasks).dependencies "X" = [] ∧
      mixedPopulation.idIssues.count (Finding.repeatedId phasesKey "A").toIssue = 2 ∧
      mixedPopulation.idIssues.length = 6 := by
  obtain ⟨hids, hdependencies, hother, ⟨repeated, hissues, hlength⟩, hcount, _⟩ :=
    id_rules_agree_with_graph mixedPopulation
  have hnodes : (ofTasks mixedPopulation.tasks).nodes = #["A", "B"] := by
    rw [← Array.toList_inj, hids]
    rfl
  have hunlisted : "X" ∉ (ofTasks mixedPopulation.tasks).nodes := by
    simp [hnodes]
  refine ⟨by rw [hnodes], ?_, hunlisted, hother "X" hunlisted, ?_, ?_⟩
  · rw [hdependencies]
    decide
  · exact (hcount "A").trans (by decide)
  · have hrepeated : repeated.length = 2 := by
      rw [hnodes] at hlength
      have hsize : (#["A", "B"] : Array String).size = 2 := rfl
      have hall : mixedPopulation.ids.length = 4 := rfl
      omega
    rw [hissues, List.length_append, List.length_map, hrepeated, hnodes]
    simp [mixedPopulation]

end PlanAudit
