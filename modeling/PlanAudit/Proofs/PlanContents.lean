import PlanAudit.Proofs.KeyedPhases

/-! What a plan says, told by the members of its objects: its sections, its phases in either form and
the tasks that count. -/
namespace PlanAudit

/-- The items of an array; any other value, or none, has no items. -/
inductive HasItems (value : Option Json) : List Json → Prop where
  | array {items : List Json} : value = some (.array items) → HasItems value items
  | other : (∀ items, value ≠ some (.array items)) → HasItems value []

theorem hasItems_iff {value : Option Json} {items : List Json} :
    HasItems value items ↔ items = (value.bind Json.array?).getD [] := by
  constructor
  · rintro (harray | hother)
    · rw [Json.bind_array?_eq_some_iff.2 harray, Option.getD_some]
    · rw [Json.bind_array?_eq_none_iff.2 hother, Option.getD_none]
  · rintro rfl
    cases hlist : value.bind Json.array? with
    | none => exact .other (Json.bind_array?_eq_none_iff.1 hlist)
    | some items => exact .array (Json.bind_array?_eq_some_iff.1 hlist)

def phaseTasks (phase : Json) : List Task :=
  (((phase.get? "tasks").bind Json.array?).getD []).filterMap Task.ofJson?

namespace PhaseLayout

/-- An array of phases decides the form, whatever else the section holds. -/
theorem ofMembers_of_array {members : Json.Members} {phases : List Json}
    (h : members.get? "phases" = some (.array phases)) : ofMembers members = array phases := by
  unfold ofMembers
  rw [h]
  rfl

theorem phases_ofMembers {members : Json.Members}
    (h : (members.get? "phases").bind Json.array? = none) :
    (ofMembers members).phases = (keyedPhases members).map Prod.snd := by
  unfold ofMembers
  rw [h]
  cases keyedPhases members <;> rfl

theorem tasks_eq_flatMap (layout : PhaseLayout) : layout.tasks = layout.phases.flatMap phaseTasks :=
  rfl

end PhaseLayout

def IsPhase (entry : String × Json) : Prop :=
  "phase_".toList <+: entry.1.toList ∧ entry.2.isObject = true

instance (entry : String × Json) : Decidable (IsPhase entry) := by
  unfold IsPhase
  infer_instance

namespace Plan

def HasSection (plan : Plan) (name : String) (content : Json) : Prop :=
  ∃ sections : Json.Members, plan.root.get? sectionsKey = some (.object sections) ∧
    sections.get? name = some content

inductive ListsPhases (plan : Plan) : List Json → Prop where
  | whole {phases : List Json} : plan.HasSection phasesKey (.array phases) → ListsPhases plan phases
  | member {members : Json.Members} {phases : List Json} :
    plan.HasSection phasesKey (.object members) →
    members.get? "phases" = some (.array phases) → ListsPhases plan phases

/-- The phases section is an object that has no such array. -/
structure KeysPhases (plan : Plan) (members : Json.Members) : Prop where
  inSection : plan.HasSection phasesKey (.object members)
  noArray : ∀ phases, members.get? "phases" ≠ some (.array phases)

/-- All phases of a plan. The order of phases with keys is left open. -/
inductive HasPhases (plan : Plan) : List Json → Prop where
  | listed {phases : List Json} : plan.ListsPhases phases → HasPhases plan phases
  | keyed {members : Json.Members} {phases : List Json} : plan.KeysPhases members →
    phases.Perm ((members.filter fun entry => IsPhase entry).map Prod.snd) → HasPhases plan phases
  | absent : (∀ phases, ¬ plan.ListsPhases phases) → (∀ members, ¬ plan.KeysPhases members) →
    HasPhases plan []

def HasPhaseTasks (plan : Plan) (tasks : List Task) : Prop :=
  ∃ phases entries, plan.HasPhases phases ∧
    List.Forall₂ (fun phase items => HasItems (phase.get? "tasks") items) phases entries ∧
    tasks = entries.flatten.filterMap Task.ofJson?

/-- The tasks that count: those of the phases, or if these declare none those of the task system. -/
inductive Declares (plan : Plan) : List Task → Prop where
  | phases {tasks : List Task} : plan.HasPhaseTasks tasks → tasks ≠ [] → Declares plan tasks
  | flat {system : Json} {entries : List Json} : plan.HasPhaseTasks [] →
    plan.HasSection taskSystemKey system → HasItems (system.get? "tasks") entries →
    Declares plan (entries.filterMap Task.ofJson?)
  | none : plan.HasPhaseTasks [] → (∀ system, ¬ plan.HasSection taskSystemKey system) →
    Declares plan []

variable {plan : Plan}

theorem hasSection_iff {name : String} {content : Json} :
    plan.HasSection name content ↔ plan.section? name = some content := by
  rw [section?, Option.bind_eq_some_iff]
  simp only [HasSection, sections?_eq_some_iff]

theorem keyedPhases_perm (members : Json.Members) :
    (PhaseLayout.keyedPhases members).Perm (members.filter fun entry => IsPhase entry) := by
  have hfilter : (fun entry : String × Json => decide (IsPhase entry)) =
      fun entry => (phaseSuffix? entry.1).isSome && entry.2.isObject := by
    funext entry
    rw [Bool.eq_iff_iff, decide_eq_true_eq, Bool.and_eq_true, IsPhase, phaseSuffix?,
      List.isSome_isPrefixOf?_eq_isPrefixOf, List.isPrefixOf_iff_prefix]
  rw [hfilter]
  exact List.mergeSort_perm _ _

theorem phaseLayout_of_listsPhases {phases : List Json} (h : plan.ListsPhases phases) :
    plan.phaseLayout = .array phases := by
  cases h with
  | whole hsection =>
    rw [phaseLayout, hasSection_iff.1 hsection]
    rfl
  | member hsection harray =>
    rw [phaseLayout, hasSection_iff.1 hsection]
    exact PhaseLayout.ofMembers_of_array harray

theorem phaseLayout_of_keysPhases {members : Json.Members} (h : plan.KeysPhases members) :
    plan.phaseLayout = if PhaseLayout.keyedPhases members = [] then .absent
      else .keyed (PhaseLayout.keyedPhases members) := by
  rw [phaseLayout, hasSection_iff.1 h.inSection]
  exact PhaseLayout.ofMembers_eq h.noArray

theorem phaseLayout_of_absent (hlisted : ∀ phases, ¬ plan.ListsPhases phases)
    (hkeyed : ∀ members, ¬ plan.KeysPhases members) : plan.phaseLayout = .absent := by
  unfold phaseLayout
  cases hsection : plan.section? phasesKey with
  | none => rfl
  | some content =>
    have hcontent := hasSection_iff.2 hsection
    cases content with
    | array phases => exact absurd (.whole hcontent) (hlisted phases)
    | object members =>
      by_cases harray : ∃ phases, Json.Members.get? members "phases" = some (.array phases)
      · obtain ⟨phases, hphases⟩ := harray
        exact absurd (.member hcontent hphases) (hlisted phases)
      · exact absurd ⟨hcontent, fun phases h => harray ⟨phases, h⟩⟩ (hkeyed members)
    | _ => rfl

theorem ListsPhases.unique {phases others : List Json} (h : plan.ListsPhases phases)
    (hothers : plan.ListsPhases others) : phases = others := by
  have hlayout := phaseLayout_of_listsPhases h
  rw [phaseLayout_of_listsPhases hothers] at hlayout
  exact (PhaseLayout.array.inj hlayout).symm

theorem KeysPhases.unique {members others : Json.Members} (h : plan.KeysPhases members)
    (hothers : plan.KeysPhases others) : members = others := by
  have hsection := hasSection_iff.1 h.inSection
  rw [hasSection_iff.1 hothers.inSection] at hsection
  exact (Json.object.inj (Option.some.inj hsection)).symm

theorem ListsPhases.not_keysPhases {phases : List Json} {members : Json.Members}
    (h : plan.ListsPhases phases) : ¬ plan.KeysPhases members := by
  intro hkeyed
  have hlayout := phaseLayout_of_listsPhases h
  rw [phaseLayout_of_keysPhases hkeyed] at hlayout
  split_ifs at hlayout

theorem phases_of_keysPhases {members : Json.Members} (h : plan.KeysPhases members) :
    plan.phaseLayout.phases = (PhaseLayout.keyedPhases members).map Prod.snd := by
  rw [phaseLayout, hasSection_iff.1 h.inSection]
  exact PhaseLayout.phases_ofMembers (Json.bind_array?_eq_none_iff.2 h.noArray)

/-- The three forms of a phases section. -/
theorem phases_cases (plan : Plan) :
    (∃ phases, plan.ListsPhases phases) ∨ (∃ members, plan.KeysPhases members) ∨
      (∀ phases, ¬ plan.ListsPhases phases) ∧ ∀ members, ¬ plan.KeysPhases members := by
  by_cases hlisted : ∃ phases, plan.ListsPhases phases
  · exact .inl hlisted
  by_cases hkeyed : ∃ members, plan.KeysPhases members
  · exact .inr (.inl hkeyed)
  · exact .inr (.inr ⟨not_exists.1 hlisted, not_exists.1 hkeyed⟩)

theorem HasPhases.perm {phases : List Json} (h : plan.HasPhases phases) :
    phases.Perm plan.phaseLayout.phases := by
  cases h with
  | listed hlisted =>
    rw [phaseLayout_of_listsPhases hlisted]
    exact .refl _
  | keyed hkeyed hphases =>
    rw [phases_of_keysPhases hkeyed]
    exact hphases.trans ((keyedPhases_perm _).map _).symm
  | absent hlisted hkeyed =>
    rw [phaseLayout_of_absent hlisted hkeyed]
    exact .refl _

theorem hasPhases_phaseLayout (plan : Plan) : plan.HasPhases plan.phaseLayout.phases := by
  rcases plan.phases_cases with ⟨phases, hlisted⟩ | ⟨members, hkeyed⟩ | ⟨hlisted, hkeyed⟩
  · rw [phaseLayout_of_listsPhases hlisted]
    exact .listed hlisted
  · rw [phases_of_keysPhases hkeyed]
    exact .keyed hkeyed ((keyedPhases_perm members).map _)
  · rw [phaseLayout_of_absent hlisted hkeyed]
    exact .absent hlisted hkeyed

/-- The task lists of phases are determined by the phases. -/
theorem forall₂_hasItems_iff {phases : List Json} {entries : List (List Json)} :
    List.Forall₂ (fun phase items => HasItems (phase.get? "tasks") items) phases entries ↔
      entries = phases.map fun phase => ((phase.get? "tasks").bind Json.array?).getD [] := by
  simp only [hasItems_iff]
  constructor
  · intro h
    induction h with
    | nil => rfl
    | cons hitems _ ih => rw [hitems, ih, List.map_cons]
  · rintro rfl
    rw [List.forall₂_map_right_iff, List.forall₂_same]
    exact fun _ _ => rfl

private theorem filterMap_flatten_map (phases : List Json) :
    (phases.map fun phase => ((phase.get? "tasks").bind Json.array?).getD []).flatten.filterMap
      Task.ofJson? = phases.flatMap phaseTasks := by
  rw [← List.flatMap_def, List.filterMap_flatMap]
  rfl

theorem HasPhaseTasks.perm {tasks : List Task} (h : plan.HasPhaseTasks tasks) :
    tasks.Perm plan.phaseLayout.tasks := by
  obtain ⟨phases, entries, hphases, hentries, rfl⟩ := h
  rw [forall₂_hasItems_iff.1 hentries, filterMap_flatten_map, PhaseLayout.tasks_eq_flatMap]
  exact hphases.perm.flatMap_right _

theorem hasPhaseTasks_phaseLayout (plan : Plan) : plan.HasPhaseTasks plan.phaseLayout.tasks :=
  ⟨_, _, plan.hasPhases_phaseLayout, forall₂_hasItems_iff.2 rfl, (filterMap_flatten_map _).symm⟩

theorem HasPhaseTasks.tasks_eq_nil (h : plan.HasPhaseTasks []) : plan.phaseLayout.tasks = [] :=
  List.nil_perm.1 h.perm

private theorem population_of_tasks_eq_nil (h : plan.phaseLayout.tasks = []) :
    plan.population.tasks = (plan.flatTasks?.getD []).filterMap Task.ofJson? := by
  rw [population, h]

private theorem flatTasks?_of_hasSection {system : Json}
    (h : plan.HasSection taskSystemKey system) :
    plan.flatTasks? = (system.get? "tasks").bind Json.array? := by
  rw [flatTasks?, hasSection_iff.1 h]
  rfl

/-- Whatever list of tasks is told, it holds the tasks of the population. -/
theorem Declares.perm {tasks : List Task} (h : plan.Declares tasks) :
    tasks.Perm plan.population.tasks := by
  cases h with
  | phases htasks hne =>
    have hperm := htasks.perm
    have hlayout : plan.phaseLayout.tasks ≠ [] := fun hnil => hne (List.perm_nil.1 (hnil ▸ hperm))
    unfold population
    split
    · contradiction
    · exact hperm
  | flat hnone hsystem hitems =>
    rw [population_of_tasks_eq_nil hnone.tasks_eq_nil, flatTasks?_of_hasSection hsystem,
      ← hasItems_iff.1 hitems]
  | none hnone hsystem =>
    have hsection : plan.section? taskSystemKey = Option.none := by
      rw [Option.eq_none_iff_forall_ne_some]
      exact fun system h => hsystem system (hasSection_iff.2 h)
    rw [population_of_tasks_eq_nil hnone.tasks_eq_nil, flatTasks?, hsection]
    exact .refl _

theorem declares_population (plan : Plan) : plan.Declares plan.population.tasks := by
  have hphases := plan.hasPhaseTasks_phaseLayout
  by_cases hnone : plan.phaseLayout.tasks = []
  · rw [hnone] at hphases
    rw [population_of_tasks_eq_nil hnone]
    cases hsection : plan.section? taskSystemKey with
    | none =>
      have hflat : plan.flatTasks? = Option.none := by
        rw [flatTasks?, hsection]
        rfl
      rw [hflat]
      exact .none hphases fun system h => by simp [hasSection_iff, hsection] at h
    | some system =>
      have hsystem := hasSection_iff.2 hsection
      rw [flatTasks?_of_hasSection hsystem]
      exact .flat hphases hsystem (hasItems_iff.2 rfl)
  · have htasks : plan.population.tasks = plan.phaseLayout.tasks := by
      unfold population
      split
      · contradiction
      · rfl
    rw [htasks]
    exact .phases hphases hnone

end Plan

end PlanAudit
