import Mathlib.Data.List.Nodup
import PlanAudit.SortedMap

/-! Sorting entries by their keys only changes their order, as long as no key is repeated. -/
namespace PlanAudit

variable {α : Type} {entries : List (String × α)}

private theorem insertKey_perm {key : String} (hkey : key ∉ entries.map Prod.fst) (value : α) :
    (insertKey key value entries).Perm ((key, value) :: entries) := by
  induction entries with
  | nil => exact .refl _
  | cons head rest ih =>
    rw [List.map_cons, List.mem_cons, not_or] at hkey
    rw [insertKey]
    split_ifs with hbefore heq
    · exact .refl _
    · exact absurd heq hkey.1
    · exact ((ih hkey.2).cons head).trans (.swap ..)

theorem sortKeys_perm (h : (entries.map Prod.fst).Nodup) : (sortKeys entries).Perm entries := by
  have hgrow : ∀ (entries sorted : List (String × α)), ((sorted ++ entries).map Prod.fst).Nodup →
      (entries.foldl (fun sorted entry => insertKey entry.1 entry.2 sorted) sorted).Perm
        (sorted ++ entries) := by
    intro entries
    induction entries with
    | nil =>
      intro sorted _
      rw [List.append_nil]
      exact .refl _
    | cons entry entries ih =>
      intro sorted hnodup
      rw [List.map_append, List.map_cons, List.nodup_middle, List.nodup_cons] at hnodup
      have hnew : entry.1 ∉ sorted.map Prod.fst := fun hmem =>
        hnodup.1 (List.mem_append_left _ hmem)
      have hinsert := insertKey_perm hnew entry.2
      have hrest : ((insertKey entry.1 entry.2 sorted ++ entries).map Prod.fst).Nodup := by
        rw [((hinsert.append_right entries).map Prod.fst).nodup_iff, List.cons_append,
          List.map_cons, List.nodup_cons, List.map_append]
        exact hnodup
      exact (ih _ hrest).trans ((hinsert.append_right entries).trans List.perm_middle.symm)
  exact hgrow entries [] h

private theorem mem_of_mem_insertKey {key : String} {value : α} {entry : String × α}
    (h : entry ∈ insertKey key value entries) : entry = (key, value) ∨ entry ∈ entries := by
  induction entries with
  | nil => exact .inl (List.mem_singleton.1 h)
  | cons head rest ih =>
    rw [insertKey] at h
    split_ifs at h
    · exact List.mem_cons.1 h
    · exact (List.mem_cons.1 h).imp_right (List.mem_cons_of_mem _)
    · rcases List.mem_cons.1 h with rfl | h
      · exact .inr List.mem_cons_self
      · exact (ih h).imp_right (List.mem_cons_of_mem _)

theorem mem_of_mem_sortKeys {entry : String × α} (h : entry ∈ sortKeys entries) :
    entry ∈ entries := by
  have hgrow : ∀ (entries sorted : List (String × α)),
      entry ∈ entries.foldl (fun sorted entry => insertKey entry.1 entry.2 sorted) sorted →
        entry ∈ sorted ∨ entry ∈ entries := by
    intro entries
    induction entries with
    | nil => exact fun sorted hmem => .inl hmem
    | cons head rest ih =>
      intro sorted hmem
      rcases ih _ hmem with hmem | hmem
      · rcases mem_of_mem_insertKey hmem with rfl | hmem
        · exact .inr List.mem_cons_self
        · exact .inl hmem
      · exact .inr (List.mem_cons_of_mem _ hmem)
  exact (hgrow entries [] h).resolve_left List.not_mem_nil

theorem KeysAscend.nodup (h : KeysAscend entries) : (entries.map Prod.fst).Nodup := by
  rw [List.Nodup, List.pairwise_map]
  refine h.imp fun {a b} hbefore heq => ?_
  rw [heq, Text.before_irrefl] at hbefore
  cases hbefore

/-- Entries in ascending order stay where they are. -/
theorem KeysAscend.sortKeys_eq (h : KeysAscend entries) : sortKeys entries = entries := by
  refine (sortKeys_perm h.nodup).eq_of_pairwise ?_ (keysAscend_sortKeys entries) h
  intro a b _ _ hab hba
  have hself := Text.before_trans hab hba
  rw [Text.before_irrefl] at hself
  cases hself

end PlanAudit
