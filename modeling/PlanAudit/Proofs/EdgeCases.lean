import PlanAudit.Proofs.Json.NumberChars
import PlanAudit.Proofs.Language
import PlanAudit.Proofs.MatchCount
import PlanAudit.Proofs.RuleChecks
import PlanAudit.Proofs.WordingInStrings

/-! The terms of edge cases are counted in the text of a section. Apart from those in its strings
and keys, these are its null values: no number has a term, and no term reaches over a mark. -/
namespace PlanAudit

def edgeCaseTerms : List String :=
  ["edge case", "scenario", "boundary", "invalid", "empty", "null", "error", "exception"]

/-- The term stands in the text, with small or capital letters. -/
def Text.HasTerm (term : String) (text : List Char) : Prop :=
  ∃ part, part <:+: text ∧ part.map foldChar = term.toList.map foldChar

namespace Json

/-- The escape of a control character ends with the first letter of the term, and the text goes on
with the rest of it. -/
def EscapeCompletes (term : String) (text : List Char) : Prop :=
  ∃ x letter rest, x.toNat < 32 ∧ (escape x).getLast? = some letter ∧ x :: rest <:+: text ∧
    (letter :: rest).map Text.foldChar = term.toList.map Text.foldChar

mutual

def texts : Json → List String
  | string s => [s]
  | array items => itemTexts items
  | object members => memberTexts members
  | _ => []

def itemTexts : List Json → List String
  | [] => []
  | item :: items => item.texts ++ itemTexts items

def memberTexts : List (String × Json) → List String
  | [] => []
  | (key, value) :: members => key :: (value.texts ++ memberTexts members)

end

mutual

def nulls : Json → Nat
  | null => 1
  | array items => itemNulls items
  | object members => memberNulls members
  | _ => 0

def itemNulls : List Json → Nat
  | [] => 0
  | item :: items => item.nulls + itemNulls items

def memberNulls : List (String × Json) → Nat
  | [] => 0
  | (_, value) :: members => value.nulls + memberNulls members

end

/-- A text without backslashes that starts the escaped text starts the text itself. -/
theorem prefix_of_prefix_escaped {part text : List Char} (hpart : '\\' ∉ part)
    (h : part <+: text.flatMap escape) : part <+: text := by
  induction text generalizing part with
  | nil => exact h
  | cons x rest ih =>
    cases part with
    | nil => exact List.nil_prefix
    | cons y part =>
      by_cases hx : x ∈ escapedChars
      · have hhead := head?_flatMap_escape_of_mem hx rest
        obtain ⟨more, hmore⟩ := h
        rw [← hmore] at hhead
        cases hhead
        exact absurd List.mem_cons_self hpart
      · rw [List.flatMap_cons, escape_of_not_mem hx, List.singleton_append,
          List.cons_prefix_cons] at h
        rw [List.mem_cons, not_or] at hpart
        exact List.cons_prefix_cons.2 ⟨h.1, ih hpart.2 h.2⟩

/-- Before its last character an escape has only a backslash, and the marks and zeros of a code. -/
theorem exists_escape_eq_append (x : Char) :
    ∃ front last, escape x = front ++ [last] ∧ ∀ y ∈ front, y ∈ ['\\', 'u', '0', '1'] := by
  by_cases hx : x ∈ escapedChars
  · have hall : (escapedChars.all fun x => (escape x) != [] &&
        (escape x).dropLast.all ['\\', 'u', '0', '1'].contains) = true := by decide
    have hescape := List.all_eq_true.1 hall x hx
    rw [Bool.and_eq_true, bne_iff_ne, List.all_eq_true] at hescape
    refine ⟨_, _, (List.dropLast_append_getLast hescape.1).symm, fun y hy => ?_⟩
    exact List.contains_iff_mem.1 (hescape.2 y hy)
  · exact ⟨[], x, escape_of_not_mem hx, nofun⟩

private theorem infix_of_infix_append {part front back : List Char} (hne : part ≠ [])
    (hhead : ∀ y ∈ part.head?, y ∉ front) (h : part <:+: front ++ back) : part <:+: back := by
  induction front with
  | nil => exact h
  | cons x front ih =>
    rw [List.cons_append, List.infix_cons_iff] at h
    rcases h with hstarts | hfound
    · obtain ⟨y, rest, rfl⟩ := List.exists_cons_of_ne_nil hne
      obtain ⟨rfl, -⟩ := List.cons_prefix_cons.1 hstarts
      exact absurd List.mem_cons_self (hhead y rfl)
    · exact ih (fun y hy hmem => hhead y hy (List.mem_cons_of_mem _ hmem)) hfound

/-- A part of the escaped text is a part of the text, or it begins with the end of an escape. -/
theorem infix_of_infix_escaped {part text : List Char} (hpart : '\\' ∉ part) (hne : part ≠ [])
    (hhead : ∀ y ∈ part.head?, y ∉ ['\\', 'u', '0', '1']) (h : part <:+: text.flatMap escape) :
    part <:+: text ∨ ∃ x letter rest, part = letter :: rest ∧ x.toNat < 32 ∧
      (escape x).getLast? = some letter ∧ x :: rest <:+: text := by
  induction text with
  | nil => exact .inl h
  | cons x text ih =>
    have hlater : text <:+: x :: text := (List.suffix_cons x text).isInfix
    obtain ⟨front, last, hescape, hfront⟩ := exists_escape_eq_append x
    rw [List.flatMap_cons, hescape, List.append_assoc, List.singleton_append] at h
    -- the part may begin with the last character of the escape, but not before it
    have hbehind := infix_of_infix_append hne (fun y hy hmem => hhead y hy (hfront y hmem)) h
    rcases List.infix_cons_iff.1 hbehind with hstarts | hfound
    · obtain ⟨letter, rest, rfl⟩ := List.exists_cons_of_ne_nil hne
      obtain ⟨rfl, hrest⟩ := List.cons_prefix_cons.1 hstarts
      rw [List.mem_cons, not_or] at hpart
      have hrest := prefix_of_prefix_escaped hpart.2 hrest
      have hlast : (escape x).getLast? = some letter := by rw [hescape, List.getLast?_concat]
      rcases Nat.lt_or_ge x.toNat 32 with hcontrol | hplain
      · exact .inr ⟨x, letter, rest, rfl, hcontrol, hlast,
          (List.cons_prefix_cons.2 ⟨rfl, hrest⟩).isInfix⟩
      · obtain rfl := Option.some.inj (hlast.symm.trans (getLast?_escape hplain))
        exact .inl (List.cons_prefix_cons.2 ⟨rfl, hrest⟩).isInfix
    · rcases ih hfound with hfound | ⟨y, letter, rest, hpart, hy, hlast, hfound⟩
      · exact .inl (hfound.trans hlater)
      · exact .inr ⟨y, letter, rest, hpart, hy, hlast, hfound.trans hlater⟩

/-- No letter of a term is escaped. -/
theorem not_mem_escapedChars_of_term {term : String} (hterm : term ∈ edgeCaseTerms)
    {part : List Char} (hpart : part.map Text.foldChar = term.toList.map Text.foldChar) :
    ∀ c ∈ part, c ∉ escapedChars := by
  have hall : (edgeCaseTerms.all fun term => escapedChars.all fun x =>
      !(term.toList.map Text.foldChar).contains (Text.foldChar x)) = true := by decide
  intro c hc hescaped
  have hnone := List.all_eq_true.1 (List.all_eq_true.1 hall term hterm) c hescaped
  rw [Bool.not_eq_true', ← Bool.not_eq_true, List.contains_iff_mem, ← hpart] at hnone
  exact hnone (List.mem_map_of_mem hc)

private theorem flatMap_escape_eq_self {text : List Char} (h : ∀ c ∈ text, c ∉ escapedChars) :
    text.flatMap escape = text := by
  induction text with
  | nil => rfl
  | cons x rest ih =>
    rw [List.forall_mem_cons] at h
    rw [List.flatMap_cons, escape_of_not_mem h.1, ih h.2, List.singleton_append]

private theorem hasTerm_of_escaped {term : String} (hterm : term ∈ edgeCaseTerms) {text : List Char}
    (h : Text.HasTerm term (text.flatMap escape)) :
    Text.HasTerm term text ∨ EscapeCompletes term text := by
  have hall : (edgeCaseTerms.all fun term => (term.toList.map Text.foldChar).head?.any fun first =>
      (['\\', 'u', '0', '1'].map Text.foldChar).all (· != first)) = true := by decide
  obtain ⟨part, hfound, hpart⟩ := h
  have hbackslash : '\\' ∉ part := fun hmem =>
    not_mem_escapedChars_of_term hterm hpart _ hmem (by decide)
  have hfirst := List.all_eq_true.1 hall term hterm
  rw [← hpart, List.head?_map] at hfirst
  have hne : part ≠ [] := by
    rintro rfl
    cases hfirst
  have hhead : ∀ y ∈ part.head?, y ∉ ['\\', 'u', '0', '1'] := by
    intro y hy hmem
    rw [hy, Option.map_some, Option.any_some, List.all_eq_true] at hfirst
    exact absurd rfl (bne_iff_ne.1 (hfirst _ (List.mem_map_of_mem hmem)))
  rcases infix_of_infix_escaped hbackslash hne hhead hfound with
    hfound | ⟨x, letter, rest, rfl, hx, hlast, hfound⟩
  · exact .inl ⟨part, hfound, hpart⟩
  · exact .inr ⟨x, letter, rest, hx, hlast, hfound, hpart⟩

private theorem hasTerm_escaped {term : String} (hterm : term ∈ edgeCaseTerms) {text : List Char}
    (h : Text.HasTerm term text ∨ EscapeCompletes term text) :
    Text.HasTerm term (text.flatMap escape) := by
  rcases h with ⟨part, ⟨front, back, rfl⟩, hpart⟩ |
    ⟨x, letter, rest, -, hlast, ⟨front, back, rfl⟩, hpart⟩
  · refine ⟨part, ⟨front.flatMap escape, back.flatMap escape, ?_⟩, hpart⟩
    rw [List.flatMap_append, List.flatMap_append,
      flatMap_escape_eq_self (not_mem_escapedChars_of_term hterm hpart)]
  · have hplain := (List.forall_mem_cons.1 (not_mem_escapedChars_of_term hterm hpart)).2
    obtain ⟨begun, hescape⟩ := List.getLast?_eq_some_iff.1 hlast
    refine ⟨_, ⟨front.flatMap escape ++ begun, back.flatMap escape, ?_⟩, hpart⟩
    rw [List.flatMap_append, List.flatMap_append, List.flatMap_cons, hescape,
      flatMap_escape_eq_self hplain]
    simp

end Json

namespace Vocabulary

theorem matches_edgeCases_iff (text : List Char) :
    edgeCases.Matches text ↔ ∃ term ∈ edgeCaseTerms, Text.HasTerm term text := by
  rw [Pattern.matches_iff_exists_infix (by decide)]
  constructor
  · rintro ⟨part, hpart, hfound⟩
    obtain ⟨_, hpattern, hpart⟩ := (Pattern.mem_language_oneOf _ _ part).1 hpart
    obtain ⟨term, hterm, rfl⟩ : ∃ term ∈ edgeCaseTerms, Pattern.caseless term = _ :=
      List.mem_map.1 hpattern
    exact ⟨term, hterm, part, hfound, (Pattern.mem_language_caseless term part).1 hpart⟩
  · rintro ⟨term, hterm, part, hfound, hpart⟩
    refine ⟨part, (Pattern.mem_language_oneOf _ _ part).2 ⟨.caseless term, ?_, ?_⟩, hfound⟩
    · exact List.mem_map_of_mem hterm
    · exact (Pattern.mem_language_caseless term part).2 hpart

theorem count_edgeCases_eq_zero_iff (text : List Char) :
    edgeCases.count text = 0 ↔ ∀ term ∈ edgeCaseTerms, ¬ Text.HasTerm term text := by
  rw [Pattern.count, List.length_eq_zero_iff, Pattern.matchesIn_eq_nil_iff, matches_edgeCases_iff]
  simp only [not_exists, not_and]

private theorem count_edgeCases_of_numeric {text : List Char} (h : Numeric text) :
    edgeCases.count text = 0 := by
  have hall : (edgeCaseTerms.all fun term => (term.toList.map Text.foldChar).any fun x =>
      !(numberChars.map Text.foldChar).contains x) = true := by decide
  rw [count_edgeCases_eq_zero_iff]
  rintro term hterm ⟨part, hfound, hpart⟩
  obtain ⟨x, hx, hother⟩ := List.any_eq_true.1 (List.all_eq_true.1 hall term hterm)
  rw [← hpart] at hx
  obtain ⟨c, hc, rfl⟩ := List.mem_map.1 hx
  rw [Bool.not_eq_true', ← Bool.not_eq_true, List.contains_iff_mem] at hother
  exact hother (List.mem_map_of_mem (h c (hfound.subset hc)))

private theorem count_edgeCases_append_cons {mark : Char}
    (hmark : mark ∈ '[' :: ']' :: partingMarks)
    (front back : List Char) :
    edgeCases.count (front ++ mark :: back) = edgeCases.count front + edgeCases.count back := by
  have hparted : ('[' :: ']' :: partingMarks).all edgeCases.partedBy = true := by decide
  exact Pattern.count_append_cons (by decide) (List.all_eq_true.1 hparted mark hmark) front back

private theorem count_edgeCases_nil : edgeCases.count [] = 0 := by
  decide

private theorem count_edgeCases_cons {mark : Char} (hmark : mark ∈ '[' :: ']' :: partingMarks)
    (back : List Char) : edgeCases.count (mark :: back) = edgeCases.count back := by
  have hcut := count_edgeCases_append_cons hmark [] back
  rwa [List.nil_append, count_edgeCases_nil, Nat.zero_add] at hcut

end Vocabulary

namespace Json

open Vocabulary

def escapedTerms (s : String) : Nat :=
  edgeCases.count (s.toList.flatMap escape)

private theorem count_edgeCases_stringChars (s : String) :
    edgeCases.count (stringChars s) = escapedTerms s := by
  rw [stringChars, List.cons_append, count_edgeCases_cons (by decide),
    count_edgeCases_append_cons (by decide), count_edgeCases_nil, Nat.add_zero, escapedTerms]

mutual

/-- Terms are found in strings and keys, and every null is one. -/
theorem count_edgeCases_chars : (value : Json) →
    edgeCases.count value.chars = value.nulls + (value.texts.map escapedTerms).sum
  | null | bool true | bool false | array [] | object [] => by decide
  | integer n => count_edgeCases_of_numeric (numeric_intChars n)
  | float x => count_edgeCases_of_numeric (numeric_write floatLayout x.negative _)
  | string s => by
    simp only [chars, count_edgeCases_stringChars, nulls, texts, List.map_cons, List.map_nil,
      List.sum_cons, List.sum_nil]
    omega
  | array (item :: items) => by
    rw [chars, List.cons_append, count_edgeCases_cons (by decide), count_edgeCases_itemsTail items,
      count_edgeCases_chars item]
    simp only [nulls, itemNulls, texts, itemTexts, List.map_append, List.sum_append]
    omega
  | object ((key, value) :: members) => by
    have htext : (object ((key, value) :: members)).chars =
        '\x7b' :: (stringChars key ++ ':' :: (value.chars ++ membersTail members)) := by
      simp [chars]
    rw [htext, count_edgeCases_cons (by decide), count_edgeCases_append_cons (by decide),
      count_edgeCases_membersTail members, count_edgeCases_chars value, count_edgeCases_stringChars]
    simp only [nulls, memberNulls, texts, memberTexts, List.map_cons, List.sum_cons,
      List.map_append, List.sum_append]
    omega

private theorem count_edgeCases_itemsTail : (items : List Json) → (front : List Char) →
    edgeCases.count (front ++ itemsTail items) =
      edgeCases.count front + (itemNulls items + ((itemTexts items).map escapedTerms).sum)
  | [], front => by
    rw [itemsTail, count_edgeCases_append_cons (by decide), count_edgeCases_nil]
    rfl
  | item :: items, front => by
    rw [itemsTail, List.cons_append, count_edgeCases_append_cons (by decide),
      count_edgeCases_itemsTail items, count_edgeCases_chars item]
    simp only [itemNulls, itemTexts, List.map_append, List.sum_append]
    omega

private theorem count_edgeCases_membersTail : (members : Members) → (front : List Char) →
    edgeCases.count (front ++ membersTail members) =
      edgeCases.count front + (memberNulls members + ((memberTexts members).map escapedTerms).sum)
  | [], front => by
    rw [membersTail, count_edgeCases_append_cons (by decide), count_edgeCases_nil]
    rfl
  | (key, value) :: members, front => by
    have htext : membersTail ((key, value) :: members) =
        ',' :: (stringChars key ++ ':' :: (value.chars ++ membersTail members)) := by
      simp [membersTail]
    rw [htext, count_edgeCases_append_cons (by decide), count_edgeCases_append_cons (by decide),
      count_edgeCases_membersTail members, count_edgeCases_chars value, count_edgeCases_stringChars]
    simp only [memberNulls, memberTexts, List.map_cons, List.sum_cons, List.map_append,
      List.sum_append]
    omega

end

theorem escapedTerms_eq_zero_iff (s : String) :
    escapedTerms s = 0 ↔ ∀ term ∈ edgeCaseTerms,
      ¬ Text.HasTerm term s.toList ∧ ¬ EscapeCompletes term s.toList := by
  rw [escapedTerms, count_edgeCases_eq_zero_iff]
  refine forall₂_congr fun term hterm => ?_
  rw [← not_or, not_iff_not]
  exact ⟨hasTerm_of_escaped hterm, hasTerm_escaped hterm⟩

/-- Nothing but nulls is counted if no text has a term, not even behind an escape. -/
theorem count_edgeCases_eq_nulls {value : Json}
    (hterms : ∀ s ∈ value.texts, ∀ term ∈ edgeCaseTerms, ¬ Text.HasTerm term s.toList)
    (hescapes : ∀ s ∈ value.texts, ∀ term ∈ edgeCaseTerms, ¬ EscapeCompletes term s.toList) :
    edgeCases.count value.chars = value.nulls := by
  have htexts : (value.texts.map escapedTerms).sum = 0 := by
    rw [List.sum_eq_zero_iff]
    intro count hcount
    obtain ⟨s, hs, rfl⟩ := List.mem_map.1 hcount
    rw [escapedTerms_eq_zero_iff]
    exact fun term hterm => ⟨hterms s hs term hterm, hescapes s hs term hterm⟩
  rw [count_edgeCases_chars, htexts, Nat.add_zero]

end Json

theorem Rule.fewEdgeCases_eq {plan : Plan} {content : Json}
    (h : plan.section? testingKey = some content) :
    fewEdgeCases plan =
      if Vocabulary.edgeCases.count content.chars < 5 then
        [.fewEdgeCases (Vocabulary.edgeCases.count content.chars)] else [] := by
  rw [fewEdgeCases, h]
  rfl

/-- The null values of the section on testing are what is counted, as long as its strings and keys
hold no term, and no control character stands where its escape completes one. -/
theorem Check.null_values_count_as_edge_cases (required : List String) (plan : Plan)
    {content : Json} (hsection : plan.section? testingKey = some content)
    (hterms : ∀ s ∈ content.texts, ∀ term ∈ edgeCaseTerms, ¬ Text.HasTerm term s.toList)
    (hescapes : ∀ s ∈ content.texts, ∀ term ∈ edgeCaseTerms, ¬ Json.EscapeCompletes term s.toList) :
    (run required plan [] .quality).filter (fun issue =>
        "Insufficient edge case coverage".toList.isPrefixOf issue.message.toList) =
      if content.nulls < 5 then [(Finding.fewEdgeCases content.nulls).toIssue] else [] := by
  have hown : Checklist.item? "edge_case_behavior_defined" =
      some (.beginning _ "Insufficient edge case coverage") := rfl
  have hitem := Checklist.mem_of_item? hown
  simp only [run_eq, findings, List.nil_append, List.map_append, List.filter_append,
    (Rule.thinDescriptions_concerns _).filter_opening hitem (by decide),
    (Rule.phaseFaults_concerns _).filter_opening hitem (by decide),
    (Rule.vagueCriteria_concerns _).filter_opening hitem (by decide), Rule.fewEdgeCases_eq hsection,
    Json.count_edgeCases_eq_nulls hterms hescapes]
  split
  · have hregular : (Finding.fewEdgeCases content.nulls).Regular := trivial
    have hfails := (Checklist.failed_iff hitem hregular).2 (List.mem_singleton_self _)
    rw [ChecklistItem.failedByMessage_beginning, ← List.isPrefixOf_iff_prefix] at hfails
    exact List.filter_cons_of_pos hfails
  · rfl

def Plan.withTesting (content : Json) : Plan :=
  ⟨[(sectionsKey, .object [(testingKey, content)])]⟩

theorem Check.two_null_values_counted :
    let content : Json := .object [("cases", .array [.string "first\nsecond", .null, .integer 7]),
      ("owner", .null)]
    (∀ s ∈ content.texts, ∀ term ∈ edgeCaseTerms, ¬ Text.HasTerm term s.toList) ∧
    (∀ s ∈ content.texts, ∀ term ∈ edgeCaseTerms, ¬ Json.EscapeCompletes term s.toList) ∧
    (run builtInSections (.withTesting content) [] .quality).filter (fun issue =>
        "Insufficient edge case coverage".toList.isPrefixOf issue.message.toList) =
      [(Finding.fewEdgeCases 2).toIssue] := by
  intro content
  have htexts : ∀ s ∈ content.texts, Json.escapedTerms s = 0 := by decide
  have hclean := fun s hs => (Json.escapedTerms_eq_zero_iff s).1 (htexts s hs)
  have hterms := fun s hs term hterm => (hclean s hs term hterm).1
  have hescapes := fun s hs term hterm => (hclean s hs term hterm).2
  exact ⟨hterms, hescapes, null_values_count_as_edge_cases builtInSections _ rfl hterms hescapes⟩

/-- Five nulls are enough, and so are five lines that begin with the rest of a term: the line break
before them is written with the letter that they lack. -/
theorem Check.edge_cases_without_terms :
    let nulls : Json := .array (List.replicate 5 .null)
    let lines : Json := .array (List.replicate 5 (.string "first\null"))
    ((∀ s ∈ nulls.texts, ∀ term ∈ edgeCaseTerms, ¬ Text.HasTerm term s.toList) ∧
      run builtInSections (.withTesting nulls) [] .quality = []) ∧
    (∀ s ∈ lines.texts, ∀ term ∈ edgeCaseTerms, ¬ Text.HasTerm term s.toList) ∧
      run builtInSections (.withTesting lines) [] .quality = [] := by
  intro nulls lines
  have htexts : ∀ s ∈ lines.texts, Vocabulary.edgeCases.count s.toList = 0 := by decide
  have hlines : ∀ s ∈ lines.texts, ∀ term ∈ edgeCaseTerms, ¬ Text.HasTerm term s.toList :=
    fun s hs => (Vocabulary.count_edgeCases_eq_zero_iff _).1 (htexts s hs)
  refine ⟨⟨?_, by decide⟩, hlines, by decide⟩
  intro s hs
  cases hs

end PlanAudit
