import PlanAudit.Proofs.RaisedIssues
import PlanAudit.Proofs.WordingByPart

/-! Wording in the strings of a plan. It is looked for in the text of the plan, where the strings are
escaped, and the escape of a control character ends with a letter or a digit: a word that follows a
control character has no edge there. -/
namespace PlanAudit

namespace Json

inductive Holds (s : String) : Json → Prop where
  | here : Holds s (.string s)
  | item {items : List Json} {item : Json} : item ∈ items → Holds s item → Holds s (.array items)
  | member {members : Members} {key : String} {value : Json} :
    (key, value) ∈ members → Holds s value → Holds s (.object members)

private theorem chars_part_of_itemsTail {items : List Json} {item : Json} (h : item ∈ items) :
    item.chars <:+: itemsTail items := by
  induction items with
  | nil => cases h
  | cons head items ih =>
    rw [itemsTail]
    rcases List.mem_cons.1 h with rfl | h
    · exact ⟨[','], itemsTail items, rfl⟩
    · exact (ih h).trans (List.suffix_append _ _).isInfix

theorem chars_part_of_array {items : List Json} {item : Json} (h : item ∈ items) :
    item.chars <:+: (array items).chars := by
  cases items with
  | nil => cases h
  | cons head items =>
    rw [chars]
    rcases List.mem_cons.1 h with rfl | h
    · exact ⟨['['], itemsTail items, rfl⟩
    · exact (chars_part_of_itemsTail h).trans (List.suffix_append _ _).isInfix

def memberChars (member : String × Json) : List Char :=
  stringChars member.1 ++ ':' :: member.2.chars

private theorem memberChars_part_of_membersTail {members : Members} {member : String × Json}
    (h : member ∈ members) : memberChars member <:+: membersTail members := by
  induction members with
  | nil => cases h
  | cons head members ih =>
    rw [membersTail]
    rcases List.mem_cons.1 h with rfl | h
    · exact ⟨[','], membersTail members, by simp [memberChars]⟩
    · exact (ih h).trans (List.suffix_append _ _).isInfix

theorem memberChars_part_of_object {members : Members} {member : String × Json}
    (h : member ∈ members) : memberChars member <:+: (object members).chars := by
  cases members with
  | nil => cases h
  | cons head members =>
    rw [chars]
    rcases List.mem_cons.1 h with rfl | h
    · exact ⟨['\x7b'], membersTail members, by simp [memberChars]⟩
    · exact (memberChars_part_of_membersTail h).trans (List.suffix_append _ _).isInfix

theorem chars_part_of_object {members : Members} {key : String} {value : Json}
    (h : (key, value) ∈ members) : value.chars <:+: (object members).chars := by
  have hvalue : value.chars <:+: memberChars (key, value) :=
    ((List.suffix_cons ':' _).trans (List.suffix_append _ _)).isInfix
  exact hvalue.trans (memberChars_part_of_object h)

/-- A string that a value holds stands in its text. -/
theorem Holds.stringChars_part {s : String} {value : Json} (h : Holds s value) :
    stringChars s <:+: value.chars := by
  induction h with
  | here => exact List.infix_refl _
  | item hitem _ ih => exact ih.trans (chars_part_of_array hitem)
  | member hmember _ ih => exact ih.trans (chars_part_of_object hmember)

def escapedChars : List Char :=
  '"' :: '\\' :: (List.range 32).map Char.ofNat

theorem escape_of_not_mem {x : Char} (h : x ∉ escapedChars) : escape x = [x] := by
  unfold escape
  split
  case h_8 =>
    refine if_neg fun hlt => h ?_
    refine List.mem_cons_of_mem _ (List.mem_cons_of_mem _ (List.mem_map.2 ?_))
    exact ⟨x.toNat, List.mem_range.2 hlt, Char.ofNat_toNat x⟩
  all_goals exact absurd (by decide) h

private theorem head?_escape {x : Char} (hx : x ∈ escapedChars) : (escape x).head? = some '\\' := by
  have hall : (escapedChars.all fun x => (escape x).head? == some '\\') = true := by decide
  exact beq_iff_eq.1 (List.all_eq_true.1 hall x hx)

/-- The escape of a character ends with it, unless it is a control character. -/
theorem getLast?_escape {x : Char} (h : 32 ≤ x.toNat) : (escape x).getLast? = some x := by
  unfold escape
  split
  case h_1 => rfl
  case h_2 => rfl
  case h_8 =>
    rw [if_neg (Nat.not_lt.2 h)]
    rfl
  all_goals exact absurd h (by decide)

theorem head?_flatMap_escape_of_mem {x : Char} (hx : x ∈ escapedChars) (rest : List Char) :
    ((x :: rest).flatMap escape).head? = some '\\' := by
  rw [List.flatMap_cons, List.head?_append, head?_escape hx]
  rfl

private theorem getLast?_flatMap_escape {text : List Char} (h : ∀ x ∈ text.getLast?, 32 ≤ x.toNat) :
    (text.flatMap escape).getLast? = text.getLast? := by
  rcases List.eq_nil_or_concat' text with rfl | ⟨front, x, rfl⟩
  · rfl
  · rw [List.getLast?_concat] at h
    rw [List.flatMap_append, List.flatMap_singleton, List.getLast?_append,
      getLast?_escape (h x rfl), List.getLast?_concat]
    rfl

end Json

/-- The place `d` of an escaped text is the place `c` of the text. What stands before it is of the
same kind, if there is a look at `edges` of words. -/
structure Cursor.Escaped (edges : Prop) (c d : Cursor) : Prop where
  before : edges → d.before.any Text.isWordChar = c.before.any Text.isWordChar
  rest : d.rest = c.rest.flatMap Json.escape

namespace Pattern

/-- The pattern matches in the text. If it asks for a word edge, then no control character stands
before the match. -/
def MatchesOpenly (p : Pattern) (text : List Char) : Prop :=
  ∃ before after, text = before ++ after ∧ p.ends (.between before after) ≠ [] ∧
    (wordEdge ∈ p.atoms → ∀ x ∈ before.getLast?, 32 ≤ x.toNat)

theorem Matches.openly {p : Pattern} (hp : wordEdge ∉ p.atoms) {text : List Char}
    (h : p.Matches text) : p.MatchesOpenly text := by
  obtain ⟨before, after, hsplit, hends⟩ := h
  exact ⟨before, after, hsplit, hends, fun hedge => absurd hedge hp⟩

section Escaped

variable {p : Pattern} (hp : Json.escapedChars.all p.partedBy = true)
include hp

/-- A pattern that escaped characters are no part of ends in an escaped text where it ends in the
text. -/
theorem forall₂_ends_escaped {c d : Cursor} (h : c.Escaped (wordEdge ∈ p.atoms) d) :
    List.Forall₂ (Cursor.Escaped (wordEdge ∈ p.atoms)) (p.ends c) (p.ends d) := by
  rw [List.all_eq_true] at hp
  have hbackslash : '\\' ∈ Json.escapedChars := by decide
  refine forall₂_ends (fun atom hatom c d h => ?_) h
  have havoids : ∀ x ∈ Json.escapedChars, atomAvoids x atom = true := by
    intro x hx
    have hparted := hp x hx
    rw [partedBy, Bool.and_eq_true, List.all_eq_true] at hparted
    exact hparted.2 atom hatom
  obtain ⟨offset, before, rest⟩ := c
  obtain ⟨offset', before', rest'⟩ := d
  obtain ⟨hbefore, rfl⟩ := h
  cases atom with
  | one set =>
    cases rest with
    | nil => exact .nil
    | cons x rest =>
      by_cases hx : x ∈ Json.escapedChars
      · -- the character is not read, and neither is the backslash in its place
        obtain ⟨more, hmore⟩ := List.head?_eq_some_iff.1 (Json.head?_flatMap_escape_of_mem hx rest)
        have hset := havoids x hx
        have hset' := havoids _ hbackslash
        simp_all [ends, atomAvoids]
      · simp only [List.flatMap_cons, Json.escape_of_not_mem hx, List.singleton_append, ends]
        split
        · exact .cons ⟨fun _ => rfl, rfl⟩ .nil
        · exact .nil
  | wordEdge =>
    have hhead : (rest.flatMap Json.escape).head?.any Text.isWordChar =
        rest.head?.any Text.isWordChar := by
      cases rest with
      | nil => rfl
      | cons x rest =>
        by_cases hx : x ∈ Json.escapedChars
        · rw [Json.head?_flatMap_escape_of_mem hx, List.head?_cons, Option.any_some, Option.any_some,
            isWordChar_of_partedBy (hp x hx), isWordChar_of_partedBy (hp _ hbackslash)]
        · rw [List.flatMap_cons, Json.escape_of_not_mem hx]
          rfl
    exact forall₂_ends_wordEdge ⟨hbefore, rfl⟩ (hbefore hatom) hhead
  | _ => exact absurd (havoids _ hbackslash) Bool.false_ne_true

theorem MatchesOpenly.matches_escaped {text : List Char} (h : p.MatchesOpenly text) :
    p.Matches (text.flatMap Json.escape) := by
  obtain ⟨before, after, rfl, hends, hopen⟩ := h
  refine ⟨before.flatMap Json.escape, after.flatMap Json.escape, List.flatMap_append, ?_⟩
  have hplace : (Cursor.between before after).Escaped (wordEdge ∈ p.atoms)
      (.between (before.flatMap Json.escape) (after.flatMap Json.escape)) := by
    refine ⟨fun hedge => ?_, rfl⟩
    simp only [Cursor.between, Json.getLast?_flatMap_escape (hopen hedge)]
  intro hnil
  have hescaped := forall₂_ends_escaped hp hplace
  rw [hnil, List.forall₂_nil_right_iff] at hescaped
  exact hends hescaped

/-- An open match in a string is a match in the text of every value that holds the string. -/
theorem MatchesOpenly.matches_chars (hwording : p.wording = true) {value : Json} {s : String}
    (hs : value.Holds s) (h : p.MatchesOpenly s.toList) : p.Matches value.chars := by
  by_contra hnone
  have hclean := (piecewise_not_matches hwording).of_quoted hnone hs.stringChars_part
  exact hclean (h.matches_escaped hp)

end Escaped

end Pattern

namespace Rule

theorem exists_placeholder {entry : String × Pattern} (hentry : entry ∈ Vocabulary.placeholders)
    {text : List Char} (h : entry.2.Matches text) :
    ∃ found, Finding.placeholder entry.1 found ∈ placeholders text := by
  have hne : entry.2.matchesIn text ≠ [] := by
    rw [ne_eq, Pattern.matchesIn_eq_nil_iff, not_not]
    exact h
  obtain ⟨found, rest, hfound⟩ := List.exists_cons_of_ne_nil hne
  refine ⟨String.ofList found.text, List.mem_filterMap.2 ⟨entry, hentry, ?_⟩⟩
  simp [Pattern.find?, hfound]

theorem exists_ambiguousWording {text : List Char} (h : Vocabulary.ambiguous.Matches text) :
    ∃ found excerpt, Finding.ambiguousWording found excerpt ∈ ambiguousWording text := by
  have hne : ambiguousWording text ≠ [] := by
    rw [ne_eq, ambiguousWording_eq_nil_iff, not_not]
    exact h
  obtain ⟨finding, hfinding⟩ := List.exists_mem_of_ne_nil _ hne
  obtain ⟨found, -, rfl⟩ := List.mem_map.1 hfinding
  exact ⟨_, _, hfinding⟩

end Rule

/-- A control character right before a word is written with a letter and so hides its edge. Only two
of the placeholders need one. -/
theorem Check.open_wording_reported (required : List String) (plan : Plan) {s : String}
    (hs : plan.toJson.Holds s) :
    (∀ entry ∈ Vocabulary.placeholders, entry.2.MatchesOpenly s.toList →
      ∃ found, (Finding.placeholder entry.1 found).toIssue ∈ run required plan [] .completeness) ∧
    (∀ entry ∈ Vocabulary.placeholders, entry.1 ∉ ["TBD", "TODO"] →
      entry.2.Matches s.toList → entry.2.MatchesOpenly s.toList) ∧
    (Vocabulary.ambiguous.MatchesOpenly s.toList →
      ∃ found excerpt,
        (Finding.ambiguousWording found excerpt).toIssue ∈ run required plan [] .autonomy) := by
  have hparted : ∀ entry ∈ Vocabulary.placeholders,
      Json.escapedChars.all entry.2.partedBy = true := by decide
  have hedges : ∀ entry ∈ Vocabulary.placeholders, entry.1 ∉ ["TBD", "TODO"] →
      Pattern.wordEdge ∉ entry.2.atoms := by decide
  refine ⟨?_, fun entry hentry hname => Pattern.Matches.openly (hedges entry hentry hname), ?_⟩
  · intro entry hentry hopen
    have hmatches := hopen.matches_chars (hparted entry hentry)
      (Vocabulary.wording_placeholders entry hentry) hs
    obtain ⟨found, hfound⟩ := Rule.exists_placeholder hentry hmatches
    refine ⟨found, mem_run_iff.2 ⟨_, ?_, rfl⟩⟩
    simp only [findings, List.append_assoc]
    exact List.mem_append_left _ hfound
  · intro hopen
    have hmatches := hopen.matches_chars (by decide) Vocabulary.wording_ambiguous hs
    obtain ⟨found, excerpt, hfound⟩ := Rule.exists_ambiguousWording hmatches
    exact ⟨found, excerpt, mem_run_iff.2 ⟨_, List.mem_append_left _ hfound, rfl⟩⟩

/-- A control character further away hides nothing. -/
theorem Check.open_wording_in_list :
    let plan : Plan := ⟨[("steps", .array [.string "first:\n- TODO, maybe"])]⟩
    plan.toJson.Holds "first:\n- TODO, maybe" ∧
      (∃ found, (Finding.placeholder "TODO" found).toIssue ∈
        run builtInSections plan [] .completeness) ∧
      ∃ found excerpt, (Finding.ambiguousWording found excerpt).toIssue ∈
        run builtInSections plan [] .autonomy := by
  intro plan
  have hs : plan.toJson.Holds "first:\n- TODO, maybe" :=
    .member (List.mem_singleton_self _) (.item (List.mem_singleton_self _) .here)
  have htodo : (Vocabulary.wholeWord (.caseless "TODO")).MatchesOpenly
      "first:\n- TODO, maybe".toList :=
    ⟨"first:\n- ".toList, "TODO, maybe".toList, rfl, by decide, fun _ => by simp⟩
  have hmaybe : Vocabulary.ambiguous.MatchesOpenly "first:\n- TODO, maybe".toList :=
    ⟨"first:\n- TODO, ".toList, "maybe".toList, rfl, by decide, fun _ => by simp⟩
  have hreported := open_wording_reported builtInSections plan hs
  exact ⟨hs, hreported.1 ("TODO", _) (.tail _ (.head _)) htodo, hreported.2.2 hmaybe⟩

/-- The line break is written as a backslash and a letter, so the word on the next line has no edge
before it in the text, and nothing is reported. -/
theorem Check.line_break_hides_wording :
    let plan : Plan := ⟨[("notes", .string "first\nTBD")]⟩
    plan.toJson.Holds "first\nTBD" ∧
      (∃ entry ∈ Vocabulary.placeholders, entry.1 = "TBD" ∧ entry.2.Matches "first\nTBD".toList) ∧
      Vocabulary.ambiguous.Matches "first\nTBD".toList ∧
      run builtInSections plan [] .completeness = [] ∧
      run builtInSections plan [] .autonomy = [] := by
  refine ⟨.member (List.mem_singleton_self _) .here, ⟨_, .head _, rfl, ?_⟩, ?_, ?_, ?_⟩
  · exact ⟨"first\n".toList, "TBD".toList, rfl, by decide⟩
  · exact ⟨"first\n".toList, "TBD".toList, rfl, by decide⟩
  · decide
  · decide

end PlanAudit
