import PlanAudit.Proofs.ChecklistItems

/-! What each finding does to the checklist: it fails the checks of the rule that made it and no
other, so the checklist tells which rules found something. -/
namespace PlanAudit

namespace Finding

def failedChecks : Finding → List String
  | missingMetadata => ["metadata_present"]
  | missingContainer => ["sections_container_present", "all_sections_present"]
  | missingSection _ => ["all_sections_present"]
  | placeholder _ _ => ["no_placeholder_text"]
  | repeatedId _ _ => ["task_ids_unique"]
  | unknownDependency _ _ _ => ["dependencies_valid"]
  | circularDependency _ _ => ["no_circular_dependencies"]
  | shortDescription _ _ _ => ["task_descriptions_detailed"]
  | briefDescription _ _ _ => ["task_descriptions_detailed"]
  | missingPhaseField _ _ => ["phases_complete"]
  | invalidComplexity _ _ => ["complexity_ratings_valid"]
  | invalidEffort _ _ => ["effort_levels_valid"]
  | deprecatedDuration _ => ["no_deprecated_fields"]
  | vagueCriteria _ => ["success_criteria_measurable"]
  | fewEdgeCases _ => ["edge_case_behavior_defined"]
  | missingWorkorderId => ["workorder_id_present"]
  | malformedWorkorderId _ => ["workorder_id_format_valid"]
  | missingWorkorderField field =>
    if field = "name" then ["workorder_name_present"] else ["workorder_feature_dir_present"]
  | missingTaskWorkorder _ _ => ["tasks_reference_workorder"]
  | wrongTaskWorkorder _ _ _ => ["workorder_ids_consistent"]
  | ambiguousWording _ _ => ["no_ambiguous_language"]
  | openQuestion _ => ["no_unresolved_questions"]
  | timeEstimates _ => ["no_time_estimates"]

/-- The fields of a workorder that a rule asks for, its id apart, are its name and its directory. -/
def Regular : Finding → Prop
  | missingWorkorderField field => field = "name" ∨ field = "feature_dir"
  | _ => True

end Finding

theorem prefix_toList_append {phrase a : String} (b : String) (h : phrase.toList <+: a.toList) :
    phrase.toList <+: (a ++ b).toList := by
  rw [String.toList_append]
  exact h.trans (List.prefix_append _ _)

namespace Checklist

/-- Without a container both of its checks fail, and nothing else does. -/
theorem failed_iff_missingContainer : ∀ item ∈ items,
    (item.failedByMessage Finding.missingContainer.message = true ↔
      item.name ∈ containerChecks) := by
  decide +kernel

theorem sections_failed_by_opening {item : ChecklistItem}
    (hitem : item? "all_sections_present" = some item)
    {message : String} (h : "Missing required section".toList <+: message.toList) :
    item.failedByMessage message = true := by
  obtain ⟨rest, hrest⟩ := h
  have hsplit : message.toList = "Missing ".toList ++ ("required section".toList ++ rest) := by
    rw [← hrest, ← List.append_assoc]
    rfl
  cases hitem
  refine (Pattern.occursIn_iff_matches _ _).2 ((Pattern.matches_textStart_iff _ _).2 ?_)
  simp [Pattern.ends_literal, Pattern.ends, Cursor.start, Cursor.past, hsplit]

/-- A missing section leaves the check of the container alone, as the message goes on differently
behind its first word. -/
theorem failed_iff_missingSection {item : ChecklistItem} (hitem : item ∈ items) (name : String) :
    item.failedByMessage (Finding.missingSection name).message = true ↔
      item.name ∈ ["all_sections_present"] := by
  obtain ⟨own, hown⟩ : ∃ own, item? "all_sections_present" = some own := ⟨_, rfl⟩
  have hname := name_of_item? hown
  have hfails : own.failedByMessage (Finding.missingSection name).message = true :=
    sections_failed_by_opening hown (prefix_toList_append _ (by decide))
  rw [List.mem_singleton]
  constructor
  · intro h
    rcases names_of_failed (mem_of_item? hown) hitem hfails h with heq | ⟨_, hshared⟩
    · rw [← heq, hname]
    · rcases List.mem_cons.1 hshared with hcontainer | hsections
      · have hopens : "Missing required section: ".toList <+:
            (Finding.missingSection name).message.toList :=
          prefix_toList_append _ (List.prefix_refl _)
        have hrefused : ∀ item ∈ items, item.name = "sections_container_present" →
            ∀ s ∈ item.failedBy.spellings, ¬ s <+: "Missing required section: ".toList ∧
              ¬ "Missing required section: ".toList <+: s := by
          decide
        obtain ⟨s, hs, hsm⟩ := Pattern.exists_spelling_of_matches (items_plain item hitem)
          (items_anchored item hitem) ((Pattern.occursIn_iff_matches _ _).1 h)
        obtain ⟨hshort, hlong⟩ := hrefused item hitem hcontainer s hs
        rcases List.prefix_or_prefix_of_prefix hsm hopens with hle | hge
        · exact absurd hle hshort
        · exact absurd hge hlong
      · exact List.mem_singleton.1 hsections
  · intro h
    rwa [eq_of_name_eq hitem (mem_of_item? hown) (h.trans hname.symm)]

theorem failed_iff_missingWorkorderField {item : ChecklistItem} (hitem : item ∈ items)
    {field : String} (hfield : field = "name" ∨ field = "feature_dir") :
    item.failedByMessage (Finding.missingWorkorderField field).message = true ↔
      item.name ∈ (Finding.missingWorkorderField field).failedChecks := by
  rcases hfield with rfl | rfl
  · have hown : item? "workorder_name_present" = some (.whole _ "Workorder missing name") := rfl
    exact failed_iff_of_failed (mem_of_item? hown) hitem (by decide) (by decide)
  · have hown : item? "workorder_feature_dir_present" =
        some (.whole _ "Workorder missing feature_dir") := rfl
    exact failed_iff_of_failed (mem_of_item? hown) hitem (by decide) (by decide)

/-- Whatever a finding quotes, the items that its message fails are its own. -/
theorem failed_iff {item : ChecklistItem} (hitem : item ∈ items) {finding : Finding}
    (hregular : finding.Regular) :
    item.failedByMessage finding.message = true ↔ item.name ∈ finding.failedChecks := by
  cases finding with
  | missingMetadata =>
    have hown : item? "metadata_present" =
        some (.beginningWord _ "Missing META_DOCUMENTATION") := rfl
    exact failed_iff_of_failed (mem_of_item? hown) hitem (by decide) (by decide)
  | missingContainer => exact failed_iff_missingContainer item hitem
  | missingSection name => exact failed_iff_missingSection hitem name
  | placeholder token found =>
    exact failed_iff_of_beginning rfl (by decide)
      (prefix_toList_append _ (prefix_toList_append _ (by decide))) hitem
  | repeatedId area id =>
    exact failed_iff_of_beginning rfl (by decide)
      (prefix_toList_append _ (by decide)) hitem
  | unknownDependency area task target =>
    exact failed_iff_of_beginning rfl (by decide)
      (prefix_toList_append _ (prefix_toList_append _ (prefix_toList_append _
        (prefix_toList_append _ (by decide))))) hitem
  | circularDependency area edge =>
    exact failed_iff_of_beginning rfl (by decide)
      (prefix_toList_append _ (prefix_toList_append _ (prefix_toList_append _
        (by decide)))) hitem
  | shortDescription area task words =>
    exact failed_iff_of_beginning rfl (by decide)
      (prefix_toList_append _ (prefix_toList_append _ (prefix_toList_append _
        (prefix_toList_append _ (by decide))))) hitem
  | briefDescription area task words =>
    exact failed_iff_of_beginning rfl (by decide)
      (prefix_toList_append _ (prefix_toList_append _ (prefix_toList_append _
        (prefix_toList_append _ (by decide))))) hitem
  | missingPhaseField phase field =>
    exact failed_iff_of_beginning rfl (by decide)
      (prefix_toList_append _ (prefix_toList_append _ (prefix_toList_append _
        (prefix_toList_append _ (by decide))))) hitem
  | invalidComplexity phase value =>
    exact failed_iff_of_beginning rfl (by decide)
      (prefix_toList_append _ (prefix_toList_append _ (prefix_toList_append _
        (by decide)))) hitem
  | invalidEffort phase value =>
    exact failed_iff_of_beginning rfl (by decide)
      (prefix_toList_append _ (prefix_toList_append _ (prefix_toList_append _
        (by decide)))) hitem
  | deprecatedDuration phase =>
    exact failed_iff_of_beginning rfl (by decide)
      (prefix_toList_append _ (prefix_toList_append _ (by decide))) hitem
  | vagueCriteria count =>
    exact failed_iff_of_beginning rfl (by decide)
      (prefix_toList_append _ (prefix_toList_append _ (prefix_toList_append _
        (by decide)))) hitem
  | fewEdgeCases count =>
    exact failed_iff_of_beginning rfl (by decide)
      (prefix_toList_append _ (prefix_toList_append _ (prefix_toList_append _
        (by decide)))) hitem
  | missingWorkorderId =>
    have hown : item? "workorder_id_present" = some (.whole _ "Workorder missing id") := rfl
    exact failed_iff_of_failed (mem_of_item? hown) hitem (by decide) (by decide)
  | malformedWorkorderId id =>
    exact failed_iff_of_beginning rfl (by decide)
      (prefix_toList_append _ (by decide)) hitem
  | missingWorkorderField field => exact failed_iff_missingWorkorderField hitem hregular
  | missingTaskWorkorder task expected =>
    exact failed_iff_of_beginning rfl (by decide)
      (prefix_toList_append _ (by decide)) hitem
  | wrongTaskWorkorder task found expected =>
    exact failed_iff_of_beginning rfl (by decide)
      (prefix_toList_append _ (prefix_toList_append _ (prefix_toList_append _
        (prefix_toList_append _ (prefix_toList_append _ (by decide)))))) hitem
  | ambiguousWording found excerpt =>
    exact failed_iff_of_beginning rfl (by decide)
      (prefix_toList_append _ (prefix_toList_append _ (prefix_toList_append _
        (prefix_toList_append _ (by decide))))) hitem
  | openQuestion excerpt =>
    exact failed_iff_of_beginning rfl (by decide)
      (prefix_toList_append _ (prefix_toList_append _ (by decide))) hitem
  | timeEstimates keywords =>
    exact failed_iff_of_beginning rfl (by decide)
      (prefix_toList_append _ (by decide)) hitem

def failedNames (message : String) : List String :=
  (items.filter (·.failedByMessage message)).map ChecklistItem.name

theorem filter_names_failedChecks (finding : Finding) :
    (items.map ChecklistItem.name).filter (· ∈ finding.failedChecks) = finding.failedChecks := by
  cases finding with
  | missingWorkorderField field =>
    by_cases h : field = "name"
    · simp only [Finding.failedChecks, if_pos h]
      decide
    · simp only [Finding.failedChecks, if_neg h]
      decide
  | _ => rfl

theorem failedNames_message {finding : Finding} (hregular : finding.Regular) :
    failedNames finding.message = finding.failedChecks := by
  have hfilter : items.filter (·.failedByMessage finding.message) =
      items.filter (fun item => decide (item.name ∈ finding.failedChecks)) := by
    refine List.filter_congr fun item hitem => ?_
    rw [Bool.eq_iff_iff, failed_iff hitem hregular, decide_eq_true_iff]
  calc failedNames finding.message
      = (items.filter fun item => decide (item.name ∈ finding.failedChecks)).map
          ChecklistItem.name := by rw [failedNames, hfilter]
    _ = (items.map ChecklistItem.name).filter (· ∈ finding.failedChecks) := by
          rw [List.filter_map]; rfl
    _ = finding.failedChecks := filter_names_failedChecks finding

theorem length_failedChecks (finding : Finding) :
    finding.failedChecks.length = 1 ∨ finding = .missingContainer ∧
      finding.failedChecks = ["sections_container_present", "all_sections_present"] := by
  cases finding with
  | missingContainer => exact .inr ⟨rfl, rfl⟩
  | missingWorkorderField field =>
    left
    simp only [Finding.failedChecks]
    split <;> rfl
  | _ => exact .inl rfl

theorem failedChecks_ne_nil (finding : Finding) : finding.failedChecks ≠ [] := by
  intro hnil
  rcases length_failedChecks finding with hone | ⟨_, htwo⟩
  · rw [hnil] at hone
    cases hone
  · rw [hnil] at htwo
    cases htwo

theorem failedChecks_subset (finding : Finding) :
    finding.failedChecks ⊆ items.map ChecklistItem.name := by
  rw [← filter_names_failedChecks finding]
  exact List.filter_subset_self _

end Checklist

end PlanAudit
