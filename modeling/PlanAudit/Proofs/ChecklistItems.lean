import Mathlib.Data.List.Nodup
import PlanAudit.Proofs.Occurrence
import PlanAudit.Validator

/-! The checklist is read off the messages. A message opens with the phrase of its finding, and no
phrase opens another one, so a finding fails the checks of its own rule whatever it quotes. -/
namespace PlanAudit

theorem lookup_cons_eq_ite {α : Type} (key : String) (entry : String × α)
    (entries : List (String × α)) :
    (entry :: entries).lookup key = if key = entry.1 then some entry.2 else entries.lookup key := by
  rw [List.lookup_cons]
  by_cases h : key = entry.1
  · rw [if_pos h, beq_iff_eq.2 h]
  · rw [if_neg h, beq_eq_false_iff_ne.2 h]

theorem lookup_insertKey {α : Type} (key k : String) (value : α) (entries : List (String × α)) :
    (insertKey k value entries).lookup key =
      if key = k then some value else entries.lookup key := by
  induction entries with
  | nil => rw [insertKey, lookup_cons_eq_ite]
  | cons head rest ih =>
    rw [insertKey]
    split
    · rw [lookup_cons_eq_ite]
    · split
      case isTrue heq =>
        subst heq
        simp only [lookup_cons_eq_ite]
        split <;> rfl
      case isFalse hne =>
        rw [lookup_cons_eq_ite, ih, lookup_cons_eq_ite]
        by_cases hk : key = k
        · subst hk
          rw [if_neg hne, if_pos rfl, if_pos rfl]
        · rw [if_neg hk, if_neg hk]

/-- Of equal keys the last one counts. -/
theorem lookup_sortKeys {α : Type} (entries : List (String × α)) (key : String) :
    (sortKeys entries).lookup key = entries.reverse.lookup key := by
  have hgrow : ∀ (entries sorted : List (String × α)),
      (entries.foldl (fun sorted entry => insertKey entry.1 entry.2 sorted) sorted).lookup key =
        (entries.reverse.lookup key).or (sorted.lookup key) := by
    intro entries
    induction entries with
    | nil => exact fun _ => rfl
    | cons head rest ih =>
      intro sorted
      rw [List.foldl_cons, ih, lookup_insertKey, List.reverse_cons, List.lookup_append,
        Option.or_assoc, lookup_cons_eq_ite]
      by_cases h : key = head.1 <;> simp [h]
  rw [sortKeys, hgrow, List.lookup_nil, Option.or_none]

theorem SortedMap.get?_ofList_map {α β : Type} {list : List α} (name : α → String) (value : α → β)
    (hnames : (list.map name).Nodup) {a : α} (ha : a ∈ list) :
    (SortedMap.ofList (list.map fun a => (name a, value a))).get? (name a) = some (value a) := by
  obtain ⟨before, after, rfl⟩ := List.append_of_mem ha
  have hafter : ∀ b ∈ after, name b ≠ name a := by
    intro b hb heq
    rw [List.map_append, List.map_cons, List.nodup_append, List.nodup_cons] at hnames
    exact hnames.2.1.1 (heq ▸ List.mem_map_of_mem hb)
  show (sortKeys _).lookup (name a) = _
  rw [lookup_sortKeys, List.lookup_eq_some_iff]
  refine ⟨(after.map fun a => (name a, value a)).reverse,
    (before.map fun a => (name a, value a)).reverse, by simp, ?_⟩
  intro entry hentry
  obtain ⟨b, hb, rfl⟩ := List.mem_map.1 (List.mem_reverse.1 hentry)
  simpa using (hafter b hb).symm

namespace Pattern

/-- A pattern without classes of characters and without repetition. -/
def plain : Pattern → Bool
  | one (.only _) => true
  | one _ => false
  | many _ => false
  | seq p q => p.plain && q.plain
  | alt p q => p.plain && q.plain
  | _ => true

def spellings : Pattern → List (List Char)
  | one (.only c) => [[c]]
  | seq p q => p.spellings.flatMap fun s => q.spellings.map (s ++ ·)
  | alt p q => p.spellings ++ q.spellings
  | _ => [[]]

/-- What lies between the start and an end of a match is one of the spellings. -/
theorem exists_spelling {p : Pattern} (hp : p.plain = true) {c d : Cursor} (hd : d ∈ p.ends c) :
    ∃ s ∈ p.spellings, c.rest = s ++ d.rest := by
  induction p generalizing c d with
  | empty => simp_all [ends, spellings]
  | one set =>
    cases set with
    | only x =>
      cases hrest : c.rest with
      | nil => simp [ends, hrest] at hd
      | cons y rest => simp_all [ends, CharSet.contains, spellings]
    | caseless x => simp [plain] at hp
    | range first last => simp [plain] at hp
    | union a b => simp [plain] at hp
    | digit => simp [plain] at hp
    | blank => simp [plain] at hp
  | seq p q ihp ihq =>
    obtain ⟨hpp, hpq⟩ := Bool.and_eq_true_iff.1 hp
    obtain ⟨e, he, hde⟩ := List.mem_flatMap.1 hd
    obtain ⟨s, hs, hcs⟩ := ihp hpp he
    obtain ⟨t, ht, het⟩ := ihq hpq hde
    refine ⟨s ++ t, List.mem_flatMap.2 ⟨s, hs, List.mem_map_of_mem ht⟩, ?_⟩
    rw [hcs, het, List.append_assoc]
  | alt p q ihp ihq =>
    obtain ⟨hpp, hpq⟩ := Bool.and_eq_true_iff.1 hp
    rcases List.mem_append.1 hd with hd | hd
    · obtain ⟨s, hs, hcs⟩ := ihp hpp hd
      exact ⟨s, List.mem_append_left _ hs, hcs⟩
    · obtain ⟨s, hs, hcs⟩ := ihq hpq hd
      exact ⟨s, List.mem_append_right _ hs, hcs⟩
  | many p ih => simp [plain] at hp
  | wordEdge => simp_all [ends, spellings]
  | textStart => simp_all [ends, spellings]
  | textEnd => simp_all [ends, spellings]

def anchored : Pattern → Bool
  | seq textStart _ => true
  | _ => false

theorem exists_spelling_of_matches {p : Pattern} (hplain : p.plain = true)
    (hanchored : p.anchored = true) {text : List Char} (h : p.Matches text) :
    ∃ s ∈ p.spellings, s <+: text := by
  obtain ⟨before, after, rfl, hends⟩ := h
  obtain ⟨d, hd⟩ := List.exists_mem_of_ne_nil _ hends
  have hbefore : before = [] := by
    unfold anchored at hanchored
    split at hanchored
    · by_contra hne
      simp [ends, Cursor.between, hne] at hd
    · cases hanchored
  obtain ⟨s, hs, hrest⟩ := exists_spelling hplain hd
  refine ⟨s, hs, d.rest, ?_⟩
  rw [hbefore, List.nil_append, ← hrest]
  rfl

end Pattern

theorem ChecklistItem.failedByMessage_beginning (name start message : String) :
    (beginning name start).failedByMessage message = true ↔ start.toList <+: message.toList := by
  rw [failedByMessage, Pattern.occursIn_iff_matches, beginning, Pattern.matches_textStart_iff,
    Pattern.ends_literal_ne_nil_iff]
  rfl

namespace Checklist

/-- The two checks that share a phrase: without a container no section is there. -/
def containerChecks : List String :=
  ["sections_container_present", "all_sections_present"]

def item? (name : String) : Option ChecklistItem :=
  items.find? (·.name == name)

theorem mem_of_item? {name : String} {item : ChecklistItem} (h : item? name = some item) :
    item ∈ items :=
  List.mem_of_find?_eq_some h

theorem name_of_item? {name : String} {item : ChecklistItem} (h : item? name = some item) :
    item.name = name := by
  unfold item? at h
  simpa using List.find?_some h

theorem items_plain : ∀ item ∈ items, item.failedBy.plain = true := by
  decide

theorem items_anchored : ∀ item ∈ items, item.failedBy.anchored = true := by
  decide

theorem names_nodup : (items.map ChecklistItem.name).Nodup := by
  decide

/-- No phrase of an item opens a phrase of another one, the shared phrase apart. -/
theorem phrases_prefix_free : ∀ a ∈ items, ∀ b ∈ items,
    ∀ s ∈ a.failedBy.spellings, ∀ t ∈ b.failedBy.spellings, s <+: t →
      a.name = b.name ∨ a.name ∈ containerChecks ∧ b.name ∈ containerChecks := by
  decide +kernel

/-- Two items that fail by one message look for phrases of which one opens the other. -/
theorem names_of_failed {a b : ChecklistItem} (ha : a ∈ items) (hb : b ∈ items) {message : String}
    (hfa : a.failedByMessage message = true) (hfb : b.failedByMessage message = true) :
    a.name = b.name ∨ a.name ∈ containerChecks ∧ b.name ∈ containerChecks := by
  obtain ⟨s, hs, hsm⟩ := Pattern.exists_spelling_of_matches (items_plain a ha)
    (items_anchored a ha) ((Pattern.occursIn_iff_matches _ _).1 hfa)
  obtain ⟨t, ht, htm⟩ := Pattern.exists_spelling_of_matches (items_plain b hb)
    (items_anchored b hb) ((Pattern.occursIn_iff_matches _ _).1 hfb)
  rcases List.prefix_or_prefix_of_prefix hsm htm with hst | hts
  · exact phrases_prefix_free a ha b hb s hs t ht hst
  · rcases phrases_prefix_free b hb a ha t ht s hs hts with heq | ⟨hmb, hma⟩
    · exact .inl heq.symm
    · exact .inr ⟨hma, hmb⟩

theorem eq_of_name_eq {a b : ChecklistItem} (ha : a ∈ items) (hb : b ∈ items)
    (h : a.name = b.name) : a = b :=
  List.inj_on_of_nodup_map names_nodup ha hb h

theorem failed_iff_of_failed {a item : ChecklistItem} (ha : a ∈ items) (hitem : item ∈ items)
    (hname : a.name ∉ containerChecks) {message : String}
    (hfa : a.failedByMessage message = true) :
    item.failedByMessage message = true ↔ item.name ∈ [a.name] := by
  rw [List.mem_singleton]
  constructor
  · intro h
    rcases names_of_failed ha hitem hfa h with heq | ⟨hshared, _⟩
    · exact heq.symm
    · exact absurd hshared hname
  · intro h
    rwa [eq_of_name_eq hitem ha h]

theorem failed_iff_of_beginning {name start : String}
    (hown : item? name = some (.beginning name start)) (hname : name ∉ containerChecks)
    {message : String} (hopens : start.toList <+: message.toList) {item : ChecklistItem}
    (hitem : item ∈ items) : item.failedByMessage message = true ↔ item.name ∈ [name] :=
  failed_iff_of_failed (mem_of_item? hown) hitem hname
    ((ChecklistItem.failedByMessage_beginning name start message).2 hopens)

end Checklist

end PlanAudit
