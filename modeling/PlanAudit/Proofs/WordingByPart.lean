import PlanAudit.Proofs.Replacement
import PlanAudit.Proofs.SilentRules

/-! Wording is looked for in the text of a whole plan, but it is found part by part: a match never
reaches over the marks between the keys and the values of an object. -/
namespace PlanAudit

/-- The marks that part the text of an object. Brackets are none, since a placeholder has them. -/
def partingMarks : List Char :=
  ['"', ',', ':', '\x7b', '\x7d']

structure Piecewise (clean : List Char → Prop) : Prop where
  nil : clean []
  cut : ∀ mark ∈ partingMarks, ∀ front back,
    clean (front ++ mark :: back) ↔ clean front ∧ clean back

namespace Piecewise

variable {clean : List Char → Prop}

theorem forall_mem {α : Type} {list : List α} {clean : α → List Char → Prop}
    (h : ∀ a ∈ list, Piecewise (clean a)) : Piecewise fun text => ∀ a ∈ list, clean a text := by
  refine ⟨fun a ha => (h a ha).nil, fun mark hmark front back => ?_⟩
  rw [← forall₂_and]
  exact forall₂_congr fun a ha => (h a ha).cut mark hmark front back

theorem cons (h : Piecewise clean) {mark : Char} (hmark : mark ∈ partingMarks) (back : List Char) :
    clean (mark :: back) ↔ clean back := by
  have hcut := h.cut mark hmark [] back
  rw [List.nil_append] at hcut
  rw [hcut, and_iff_right h.nil]

private theorem append_membersTail (h : Piecewise clean) (front : List Char)
    (members : Json.Members) :
    clean (front ++ Json.membersTail members) ↔
      clean front ∧
        ∀ member ∈ members, clean (Json.stringChars member.1) ∧ clean member.2.chars := by
  induction members generalizing front with
  | nil =>
    rw [Json.membersTail, h.cut _ (by decide)]
    simp [h.nil]
  | cons member members ih =>
    obtain ⟨key, value⟩ := member
    have htext : front ++ Json.membersTail ((key, value) :: members) =
        front ++ ',' :: (Json.stringChars key ++
          ':' :: (value.chars ++ Json.membersTail members)) := by
      simp [Json.membersTail]
    rw [htext, h.cut _ (by decide), h.cut _ (by decide), ih, List.forall_mem_cons, and_assoc]

/-- The text of an object is clean exactly if those of its keys and values are. -/
theorem object (h : Piecewise clean) (members : Json.Members) :
    clean (Json.object members).chars ↔
      ∀ member ∈ members, clean (Json.stringChars member.1) ∧ clean member.2.chars := by
  cases members with
  | nil =>
    rw [Json.chars, h.cons (by decide), h.cons (by decide)]
    simp [h.nil]
  | cons member members =>
    obtain ⟨key, value⟩ := member
    have htext : (Json.object ((key, value) :: members)).chars =
        '\x7b' :: (Json.stringChars key ++ ':' :: (value.chars ++ Json.membersTail members)) := by
      simp [Json.chars]
    rw [htext, h.cons (by decide), h.cut _ (by decide), h.append_membersTail, List.forall_mem_cons,
      and_assoc]

/-- A text in quotation marks that is a part of a clean text is clean itself. -/
theorem of_quoted (h : Piecewise clean) {content text : List Char} (htext : clean text)
    (hpart : '"' :: content ++ ['"'] <:+: text) : clean content := by
  obtain ⟨front, back, rfl⟩ := hpart
  have hsplit : front ++ ('"' :: content ++ ['"']) ++ back =
      front ++ '"' :: (content ++ '"' :: back) := by
    simp
  rw [hsplit, h.cut _ (by decide), h.cut _ (by decide)] at htext
  exact htext.2.1

end Piecewise

namespace Pattern

/-- The pattern looks for wording: it reads something, and all marks part texts for it. -/
def wording (p : Pattern) : Bool :=
  p.reads && partingMarks.all p.partedBy

theorem piecewise_not_matches {p : Pattern} (hp : p.wording = true) :
    Piecewise fun text => ¬ p.Matches text := by
  rw [wording, Bool.and_eq_true, List.all_eq_true] at hp
  refine ⟨?_, fun mark hmark front back => ?_⟩
  · rintro ⟨before, after, hsplit, hends⟩
    obtain ⟨rfl, rfl⟩ := List.append_eq_nil_iff.1 hsplit.symm
    exact hends ((end?_eq_none_iff p _).1 (end?_eq_none_of_rest_nil hp.1 _ _))
  · rw [matches_append_cons_iff (hp.2 mark hmark), not_or]

end Pattern

theorem Vocabulary.wording_placeholders : ∀ entry ∈ placeholders, entry.2.wording = true := by
  decide

theorem Vocabulary.wording_ambiguous : ambiguous.wording = true := by
  decide

namespace Rule

theorem piecewise_placeholders : Piecewise fun text => placeholders text = [] := by
  simp only [placeholders_eq_nil_iff]
  refine .forall_mem fun entry hentry => ?_
  exact Pattern.piecewise_not_matches (Vocabulary.wording_placeholders entry hentry)

theorem piecewise_ambiguousWording : Piecewise fun text => ambiguousWording text = [] := by
  simp only [ambiguousWording_eq_nil_iff]
  exact Pattern.piecewise_not_matches Vocabulary.wording_ambiguous

theorem piecewise_openQuestions : Piecewise fun text => openQuestions text = [] := by
  simp only [openQuestions_eq_nil_iff]
  exact Pattern.piecewise_not_matches (by decide)

/-- The marks stay when a text is put into lower case and false positives are taken out of it, and
they part what is left. -/
theorem piecewise_timeEstimates : Piecewise fun text => timeEstimates text = [] := by
  have hlower : ∀ mark ∈ partingMarks, Text.lowerChar mark = [mark] := by
    have hall : (partingMarks.all fun mark => Text.lowerChar mark == [mark]) = true := by
      decide
    exact fun mark hmark => beq_iff_eq.1 (List.all_eq_true.1 hall mark hmark)
  have hwording : ∀ keyword ∈ Vocabulary.timeKeywords, (Pattern.literal keyword).wording = true := by
    decide
  have hfalse : Vocabulary.timeFalsePositives.wording = true := by decide
  rw [Pattern.wording, Bool.and_eq_true, List.all_eq_true] at hfalse
  simp only [timeEstimates_eq_nil_iff, ← Pattern.matches_literal_iff]
  refine .forall_mem fun keyword hkeyword => ?_
  have hpiecewise := Pattern.piecewise_not_matches (hwording keyword hkeyword)
  refine ⟨hpiecewise.nil, fun mark hmark front back => ?_⟩
  rw [Text.lower, List.flatMap_append, List.flatMap_cons, hlower mark hmark, List.singleton_append,
    Pattern.replaceIn_append_cons (hfalse.2 mark hmark) hfalse.1]
  exact hpiecewise.cut mark hmark _ _

end Rule

end PlanAudit
