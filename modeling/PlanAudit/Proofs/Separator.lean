import Mathlib.Data.List.Forall2
import PlanAudit.Proofs.Occurrence

/-! Where a character parts a text that a pattern can neither read nor take for a part of a word, the
pattern sees two texts of their own. -/
namespace PlanAudit

theorem Text.byteLength_append (front back : List Char) :
    byteLength (front ++ back) = byteLength front + byteLength back := by
  rw [byteLength, List.foldl_append, foldl_utf8Size]
  rfl

/-- The place `d` is the place `c` of a part of its text. The part starts at byte `shift`, and `tail`
follows it. What stands before the part is of the same kind as before `c`. -/
structure Cursor.Within (shift : Nat) (tail : List Char) (c d : Cursor) : Prop where
  offset : d.offset = c.offset + shift
  before : d.before.any Text.isWordChar = c.before.any Text.isWordChar
  rest : d.rest = c.rest ++ tail

namespace Pattern

/-- What a pattern is put together from by sequence and choice. -/
def atoms : Pattern → List Pattern
  | empty => []
  | seq p q => p.atoms ++ q.atoms
  | alt p q => p.atoms ++ q.atoms
  | p => [p]

/-- If the ends of every atom correspond at places that correspond, then so do those of the pattern. -/
theorem forall₂_ends {R : Cursor → Cursor → Prop} {p : Pattern}
    (hatoms : ∀ atom ∈ p.atoms, ∀ c d, R c d → List.Forall₂ R (atom.ends c) (atom.ends d))
    {c d : Cursor} (h : R c d) : List.Forall₂ R (p.ends c) (p.ends d) := by
  induction p generalizing c d with
  | empty => exact .cons h .nil
  | seq p q hp hq =>
    refine List.rel_flatMap (hp (fun a ha => hatoms a (List.mem_append_left _ ha)) h) ?_
    exact fun _ _ hcd => hq (fun a ha => hatoms a (List.mem_append_right _ ha)) hcd
  | alt p q hp hq =>
    exact List.rel_append (hp (fun a ha => hatoms a (List.mem_append_left _ ha)) h)
      (hq (fun a ha => hatoms a (List.mem_append_right _ ha)) h)
  | one set => exact hatoms _ (List.mem_singleton_self _) c d h
  | many p => exact hatoms _ (List.mem_singleton_self _) c d h
  | wordEdge => exact hatoms _ (List.mem_singleton_self _) c d h
  | textStart => exact hatoms _ (List.mem_singleton_self _) c d h
  | textEnd => exact hatoms _ (List.mem_singleton_self _) c d h

/-- Places between characters of the same kinds are word edges together. -/
theorem forall₂_ends_wordEdge {R : Cursor → Cursor → Prop} {c d : Cursor} (h : R c d)
    (hbefore : d.before.any Text.isWordChar = c.before.any Text.isWordChar)
    (hhead : d.rest.head?.any Text.isWordChar = c.rest.head?.any Text.isWordChar) :
    List.Forall₂ R (wordEdge.ends c) (wordEdge.ends d) := by
  have hedge : d.atWordEdge = c.atWordEdge := by
    rw [Cursor.atWordEdge, Cursor.atWordEdge, hbefore, hhead]
  simp only [ends, hedge]
  split
  · exact .cons h .nil
  · exact .nil

/-- An atom that neither reads the character nor asks where the text starts or ends. -/
def atomAvoids (x : Char) : Pattern → Bool
  | one set => !set.contains x
  | wordEdge => true
  | _ => false

def partedBy (p : Pattern) (sep : Char) : Bool :=
  !Text.isWordChar sep && p.atoms.all (atomAvoids sep)

section PartedBy

variable {p : Pattern} {sep : Char}

theorem isWordChar_of_partedBy (hp : p.partedBy sep = true) : Text.isWordChar sep = false := by
  rw [partedBy, Bool.and_eq_true] at hp
  simpa using hp.1

/-- The ends of a match in a part of a text are those in the whole, if a separator follows the part. -/
theorem forall₂_ends_within (hp : p.partedBy sep = true) {shift : Nat} {tail : List Char}
    (htail : ∀ x ∈ tail.head?, x = sep) {c d : Cursor} (h : c.Within shift tail d) :
    List.Forall₂ (Cursor.Within shift tail) (p.ends c) (p.ends d) := by
  have hword := isWordChar_of_partedBy hp
  rw [partedBy, Bool.and_eq_true, List.all_eq_true] at hp
  refine forall₂_ends (fun atom hatom c d h => ?_) h
  have havoids := hp.2 atom hatom
  obtain ⟨offset, before, rest⟩ := c
  obtain ⟨offset', before', rest'⟩ := d
  obtain ⟨rfl, hbefore, rfl⟩ := h
  cases atom with
  | one set =>
    cases rest with
    | nil =>
      cases tail with
      | nil => simp [ends]
      | cons x more =>
        obtain rfl : x = sep := htail x rfl
        simp_all [ends, atomAvoids]
    | cons x rest =>
      simp only [ends, List.cons_append]
      split
      · exact .cons ⟨Nat.add_right_comm _ _ _, rfl, rfl⟩ .nil
      · exact .nil
  | wordEdge =>
    have hhead : (rest ++ tail).head?.any Text.isWordChar = rest.head?.any Text.isWordChar := by
      cases rest with
      | nil =>
        cases tail with
        | nil => rfl
        | cons x more =>
          obtain rfl : x = sep := htail x rfl
          simp [hword]
      | cons x rest => rfl
    exact forall₂_ends_wordEdge ⟨rfl, hbefore, rfl⟩ hbefore hhead
  | _ => simp [atomAvoids] at havoids

theorem ends_eq_nil_iff_within (hp : p.partedBy sep = true) {shift : Nat} {tail : List Char}
    (htail : ∀ x ∈ tail.head?, x = sep) {c d : Cursor} (h : c.Within shift tail d) :
    p.ends d = [] ↔ p.ends c = [] := by
  have hends := forall₂_ends_within hp htail h
  rw [← List.length_eq_zero_iff, ← hends.length_eq, List.length_eq_zero_iff]

theorem within_left (before after tail : List Char) :
    (Cursor.between before after).Within 0 tail (.between before (after ++ tail)) :=
  ⟨rfl, rfl, rfl⟩

/-- A place behind a separator is a place of the text that begins there. -/
theorem within_right (hp : p.partedBy sep = true) (front before after : List Char) :
    (Cursor.between before after).Within (Text.byteLength (front ++ [sep])) []
      (.between (front ++ sep :: before) after) := by
  have hword := isWordChar_of_partedBy hp
  refine ⟨?_, ?_, (List.append_nil after).symm⟩
  · simp only [Cursor.between, Text.byteLength_append, Text.byteLength_cons, Text.byteLength_nil]
    omega
  · cases hlast : before.getLast? with
    | none => simp [Cursor.between, List.getLast?_append, List.getLast?_cons, hlast, hword]
    | some x => simp [Cursor.between, List.getLast?_append, List.getLast?_cons, hlast]

/-- A pattern matches in a text with a separator exactly if it matches on one of its sides. -/
theorem matches_append_cons_iff (hp : p.partedBy sep = true) (front back : List Char) :
    p.Matches (front ++ sep :: back) ↔ p.Matches front ∨ p.Matches back := by
  have hleft : ∀ before after, p.ends (.between before (after ++ sep :: back)) = [] ↔
      p.ends (.between before after) = [] := fun before after =>
    ends_eq_nil_iff_within hp (by simp) (within_left before after (sep :: back))
  have hright : ∀ before after, p.ends (.between (front ++ sep :: before) after) = [] ↔
      p.ends (.between before after) = [] := fun before after =>
    ends_eq_nil_iff_within hp (by simp) (within_right hp front before after)
  constructor
  · rintro ⟨before, after, hsplit, hends⟩
    -- the match starts at the separator, behind it or before it
    rcases List.append_eq_append_iff.1 hsplit with ⟨read, rfl, hread⟩ | ⟨rest, rfl, rfl⟩
    · rcases List.cons_eq_append_iff.1 hread with ⟨rfl, rfl⟩ | ⟨read, rfl, rfl⟩
      · rw [List.append_nil] at hends
        exact .inl ⟨front, [], (List.append_nil front).symm, fun h => hends ((hleft front []).2 h)⟩
      · exact .inr ⟨read, after, rfl, fun h => hends ((hright read after).2 h)⟩
    · exact .inl ⟨before, rest, rfl, fun h => hends ((hleft before rest).2 h)⟩
  · rintro (⟨before, after, rfl, hends⟩ | ⟨before, after, rfl, hends⟩)
    · exact ⟨before, after ++ sep :: back, List.append_assoc _ _ _,
        fun h => hends ((hleft before after).1 h)⟩
    · exact ⟨front ++ sep :: before, after, by simp, fun h => hends ((hright before after).1 h)⟩

end PartedBy

end Pattern

end PlanAudit
