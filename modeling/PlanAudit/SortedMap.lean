import PlanAudit.Text.Order

/-! Maps from texts to values, kept as lists in ascending order of the keys. -/
namespace PlanAudit

/-- Set a key in a list in ascending order; a key that is there already gets the new value. -/
def insertKey {α : Type} (key : String) (value : α) : List (String × α) → List (String × α)
  | [] => [(key, value)]
  | (k, v) :: rest =>
    if Text.before key k then (key, value) :: (k, v) :: rest
    else if key = k then (key, value) :: rest
    else (k, v) :: insertKey key value rest

/-- Entries given in any order; of equal keys the last one counts. -/
def sortKeys {α : Type} (entries : List (String × α)) : List (String × α) :=
  entries.foldl (fun sorted entry => insertKey entry.1 entry.2 sorted) []

/-- Every key is less than all keys behind it. -/
def KeysAscend {α : Type} (entries : List (String × α)) : Prop :=
  entries.Pairwise fun a b => Text.before a.1 b.1 = true

private theorem key_of_mem_insertKey {α : Type} {key : String} {value : α}
    {entries : List (String × α)}
    {entry : String × α} (h : entry ∈ insertKey key value entries) :
    entry.1 = key ∨ entry ∈ entries := by
  induction entries with
  | nil => simp_all [insertKey]
  | cons head rest ih =>
    simp only [insertKey] at h
    split at h
    · grind
    · split at h <;> grind

theorem KeysAscend.insertKey {α : Type} {entries : List (String × α)} (h : KeysAscend entries)
    (key : String) (value : α) : KeysAscend (insertKey key value entries) := by
  induction entries with
  | nil => simp [PlanAudit.insertKey, KeysAscend]
  | cons head rest ih =>
    obtain ⟨hhead, hrest⟩ := List.pairwise_cons.1 h
    simp only [PlanAudit.insertKey]
    split
    case isTrue hbefore =>
      refine List.pairwise_cons.2 ⟨fun entry hentry => ?_, h⟩
      rcases List.mem_cons.1 hentry with rfl | hmem
      · exact hbefore
      · exact Text.before_trans hbefore (hhead entry hmem)
    case isFalse hbefore =>
      split
      case isTrue heq =>
        subst heq
        exact List.pairwise_cons.2 ⟨hhead, hrest⟩
      case isFalse hne =>
        refine List.pairwise_cons.2 ⟨fun entry hentry => ?_, ih hrest⟩
        rcases key_of_mem_insertKey hentry with hkey | hmem
        · cases hafter : Text.before head.1 key with
          | true => rw [hkey]; exact hafter
          | false => exact absurd (Text.before_total (by simpa using hbefore) hafter) hne
        · exact hhead entry hmem

theorem keysAscend_sortKeys {α : Type} (entries : List (String × α)) :
    KeysAscend (sortKeys entries) := by
  have grow : ∀ (entries sorted : List (String × α)), KeysAscend sorted →
      KeysAscend (entries.foldl (fun sorted entry => insertKey entry.1 entry.2 sorted) sorted) := by
    intro entries
    induction entries with
    | nil => exact fun _ h => h
    | cons head rest ih => exact fun _ h => ih _ (h.insertKey head.1 head.2)
  exact grow entries [] List.Pairwise.nil

structure SortedMap (α : Type) where
  entries : List (String × α)
  ascending : KeysAscend entries

namespace SortedMap

def ofList {α : Type} (entries : List (String × α)) : SortedMap α :=
  ⟨sortKeys entries, keysAscend_sortKeys entries⟩

def get? {α : Type} (m : SortedMap α) (key : String) : Option α :=
  m.entries.lookup key

end SortedMap

end PlanAudit
