import PlanAudit.Proofs.Language
import PlanAudit.Vocabulary

/-! The form of workorder ids, told by the parts between their hyphens. The pattern for it has to find
out by itself which `001` is the last one. -/
namespace PlanAudit

def IsWorkorderToken (token : List Char) : Prop :=
  token ≠ [] ∧ ∀ x ∈ token, ('A' ≤ x ∧ x ≤ 'Z') ∨ ('0' ≤ x ∧ x ≤ '9')

instance (token : List Char) : Decidable (IsWorkorderToken token) :=
  decidable_of_iff (token ≠ [] ∧ (token.all fun x =>
      decide (('A' ≤ x ∧ x ≤ 'Z') ∨ ('0' ≤ x ∧ x ≤ '9'))) = true)
    (by simp only [IsWorkorderToken, List.all_eq_true, decide_eq_true_eq])

/-- The parts between the hyphens are `WO`, then one or more tokens, and `001`. -/
def IsWorkorderId (id : String) : Prop :=
  ∃ tokens, tokens ≠ [] ∧ (∀ token ∈ tokens, IsWorkorderToken token) ∧
    id.toList.splitOn '-' = "WO".toList :: (tokens ++ ["001".toList])

def hyphened (parts : List (List Char)) : List Char :=
  (parts.map ('-' :: ·)).flatten

private theorem hyphened_cons (part : List Char) (parts : List (List Char)) :
    hyphened (part :: parts) = '-' :: (part ++ hyphened parts) :=
  rfl

private theorem hyphened_append (parts more : List (List Char)) :
    hyphened (parts ++ more) = hyphened parts ++ hyphened more := by
  simp [hyphened]

private theorem mem_hyphened {parts : List (List Char)} {x : Char} (h : x ∈ hyphened parts) :
    x = '-' ∨ ∃ part ∈ parts, x ∈ part := by
  obtain ⟨_, hmem, hx⟩ := List.mem_flatten.1 h
  obtain ⟨part, hpart, rfl⟩ := List.mem_map.1 hmem
  exact (List.mem_cons.1 hx).imp_right fun hx => ⟨part, hpart, hx⟩

private theorem intercalate_hyphen (first : List Char) (parts : List (List Char)) :
    ['-'].intercalate (first :: parts) = first ++ hyphened parts := by
  induction parts generalizing first with
  | nil => simp [hyphened]
  | cons part parts ih =>
    rw [List.intercalate_cons_cons, ih, hyphened_cons, List.append_assoc]
    rfl

/-- To split at the hyphens is to undo the joining, if there is no hyphen in a part. -/
theorem splitOn_hyphen_iff {first : List Char} {parts : List (List Char)}
    (hparts : ∀ part ∈ first :: parts, '-' ∉ part) (text : List Char) :
    text.splitOn '-' = first :: parts ↔ text = first ++ hyphened parts := by
  rw [← intercalate_hyphen]
  constructor
  · intro h
    rw [← h, List.intercalate_splitOn]
  · rintro rfl
    exact List.splitOn_intercalate '-' hparts (List.cons_ne_nil first parts)

theorem IsWorkorderToken.hyphen_notMem {token : List Char} (h : IsWorkorderToken token) :
    '-' ∉ token := fun hmem => absurd (h.2 '-' hmem) (by decide)

theorem isWorkorderToken_last : IsWorkorderToken "001".toList := by
  decide

theorem isWorkorderId_iff (id : String) :
    IsWorkorderId id ↔
      ∃ tokens, tokens ≠ [] ∧ (∀ token ∈ tokens, IsWorkorderToken token) ∧
        id.toList = "WO".toList ++ hyphened (tokens ++ ["001".toList]) := by
  refine exists_congr fun tokens => and_congr_right fun _ => and_congr_right fun htokens => ?_
  refine splitOn_hyphen_iff (List.forall_mem_cons.2 ⟨by decide, ?_⟩) id.toList
  intro part hpart
  rcases List.mem_append.1 hpart with hpart | hpart
  · exact (htokens part hpart).hyphen_notMem
  · exact List.mem_singleton.1 hpart ▸ isWorkorderToken_last.hyphen_notMem

namespace Vocabulary

open Pattern

theorem mem_language_workorderToken (word : List Char) :
    word ∈ workorderToken.language ↔ IsWorkorderToken word := by
  have hset : ∀ x, (CharSet.union (.range 'A' 'Z') (.range '0' '9')).contains x = true ↔
      ('A' ≤ x ∧ x ≤ 'Z') ∨ ('0' ≤ x ∧ x ≤ '9') := by
    intro x
    simp only [CharSet.contains, Bool.or_eq_true, Bool.and_eq_true, decide_eq_true_eq]
    exact Iff.rfl
  unfold workorderToken IsWorkorderToken
  rw [mem_language_many1_one]
  simp only [hset]

/-- Repeated tokens with a hyphen before each. -/
theorem mem_language_hyphened (word : List Char) :
    word ∈ (many (seq (literal "-") workorderToken)).language ↔
      ∃ tokens, (∀ token ∈ tokens, IsWorkorderToken token) ∧ word = hyphened tokens := by
  have hround : ∀ round, round ∈ (seq (literal "-") workorderToken).language ↔
      ∃ token, IsWorkorderToken token ∧ '-' :: token = round := by
    intro round
    simp only [mem_language_seq, mem_language_literal, mem_language_workorderToken, exists_eq_left]
    rfl
  rw [mem_language_many]
  constructor
  · rintro ⟨rounds, rfl, hrounds⟩
    have hrounds : ∀ round ∈ rounds, ∃ token, IsWorkorderToken token ∧ '-' :: token = round :=
      fun round hmem => (hround round).1 (hrounds round hmem)
    refine ⟨rounds.map List.tail, ?_, congrArg List.flatten ?_⟩
    · intro token htoken
      obtain ⟨round, hmem, rfl⟩ := List.mem_map.1 htoken
      obtain ⟨token, hform, rfl⟩ := hrounds round hmem
      exact hform
    · rw [List.map_map]
      refine ((List.map_congr_left fun round hmem => ?_).trans (List.map_id rounds)).symm
      obtain ⟨token, _, rfl⟩ := hrounds round hmem
      rfl
  · rintro ⟨tokens, htokens, rfl⟩
    refine ⟨tokens.map ('-' :: ·), rfl, fun round hmem => ?_⟩
    obtain ⟨token, htoken, rfl⟩ := List.mem_map.1 hmem
    exact (hround _).2 ⟨token, htokens token htoken, rfl⟩

/-- The first token stands apart in the pattern, so there is at least one. -/
theorem mem_language_workorderId (word : List Char) :
    word ∈ (sequence [literal "WO-", workorderToken, many (seq (literal "-") workorderToken),
        literal "-001"]).language ↔
      ∃ tokens, tokens ≠ [] ∧ (∀ token ∈ tokens, IsWorkorderToken token) ∧
        word = "WO".toList ++ hyphened (tokens ++ ["001".toList]) := by
  have hword : ∀ first rest, "WO-".toList ++ (first ++ (hyphened rest ++ "-001".toList)) =
      "WO".toList ++ hyphened (first :: rest ++ ["001".toList]) := by
    intro first rest
    rw [List.cons_append, hyphened_cons, hyphened_append]
    rfl
  simp only [Pattern.sequence, mem_language_seq, mem_language_literal, mem_language_workorderToken,
    mem_language_hyphened]
  constructor
  · rintro ⟨_, rfl, _, ⟨first, hfirst, _, ⟨_, ⟨rest, hrest, rfl⟩, _, rfl, rfl⟩, rfl⟩, rfl⟩
    exact ⟨first :: rest, List.cons_ne_nil _ _, List.forall_mem_cons.2 ⟨hfirst, hrest⟩,
      hword first rest⟩
  · rintro ⟨tokens, hne, htokens, rfl⟩
    obtain ⟨first, rest, rfl⟩ := List.exists_cons_of_ne_nil hne
    obtain ⟨hfirst, hrest⟩ := List.forall_mem_cons.1 htokens
    exact ⟨_, rfl, _, ⟨first, hfirst, _, ⟨_, ⟨rest, hrest, rfl⟩, _, rfl, rfl⟩, rfl⟩, hword first rest⟩

theorem matches_workorderId_iff (id : String) :
    workorderId.Matches id.toList ↔ IsWorkorderId id := by
  have hblind : (sequence [literal "WO-", workorderToken, many (seq (literal "-") workorderToken),
      literal "-001"]).blind = true := by decide
  rw [isWorkorderId_iff, ← mem_language_workorderId]
  exact matches_whole_iff hblind id.toList

end Vocabulary

theorem IsWorkorderId.append_last {id : String} (h : IsWorkorderId id) :
    IsWorkorderId (id ++ "-001") := by
  rw [isWorkorderId_iff] at h ⊢
  obtain ⟨tokens, _, htokens, hid⟩ := h
  refine ⟨tokens ++ ["001".toList], by simp, ?_, ?_⟩
  · intro token htoken
    rcases List.mem_append.1 htoken with htoken | htoken
    · exact htokens token htoken
    · exact List.mem_singleton.1 htoken ▸ isWorkorderToken_last
  · rw [String.toList_append, hid, hyphened_append (tokens ++ _), List.append_assoc]
    rfl

theorem IsWorkorderId.chars {id : String} (h : IsWorkorderId id) :
    ∀ x ∈ id.toList, x = '-' ∨ ('A' ≤ x ∧ x ≤ 'Z') ∨ ('0' ≤ x ∧ x ≤ '9') := by
  obtain ⟨tokens, _, htokens, hid⟩ := (isWorkorderId_iff id).1 h
  rw [hid]
  intro x hx
  rcases List.mem_append.1 hx with hx | hx
  · have hfirst : IsWorkorderToken "WO".toList := by decide
    exact .inr (hfirst.2 x hx)
  rcases mem_hyphened hx with rfl | ⟨part, hpart, hx⟩
  · exact .inl rfl
  rcases List.mem_append.1 hpart with hpart | hpart
  · exact .inr ((htokens part hpart).2 x hx)
  · exact .inr (isWorkorderToken_last.2 x (List.mem_singleton.1 hpart ▸ hx))

namespace Vocabulary

/-- The pattern is anchored at both ends. `001` may also stand in the place of a token, but a token
there must be. -/
theorem workorderId_accepts_exactly_ids (id : String) :
    (workorderId.occursIn id.toList = true ↔ IsWorkorderId id) ∧
      (workorderId.occursIn id.toList = true → workorderId.occursIn (id ++ "-001").toList = true) ∧
      (workorderId.occursIn id.toList = true →
        ∀ x ∈ id.toList, x = '-' ∨ ('A' ≤ x ∧ x ≤ 'Z') ∨ ('0' ≤ x ∧ x ≤ '9')) ∧
      workorderId.occursIn "WO-001".toList = false := by
  have haccepts : ∀ id : String, workorderId.occursIn id.toList = true ↔ IsWorkorderId id :=
    fun id => (Pattern.occursIn_iff_matches _ _).trans (matches_workorderId_iff id)
  refine ⟨haccepts id, ?_, ?_, ?_⟩
  · rw [haccepts, haccepts]
    exact IsWorkorderId.append_last
  · rw [haccepts]
    exact IsWorkorderId.chars
  · decide

end Vocabulary

end PlanAudit
