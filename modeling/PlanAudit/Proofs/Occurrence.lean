import PlanAudit.Pattern.Search

/-! Where a pattern matches in a text, told by the ways to split the text instead of by a scan. -/
namespace PlanAudit

namespace Text

@[simp] theorem byteLength_nil : byteLength [] = 0 :=
  rfl

theorem foldl_utf8Size (cs : List Char) (n : Nat) :
    cs.foldl (fun length c => length + c.utf8Size) n = n + byteLength cs := by
  unfold byteLength
  induction cs generalizing n with
  | nil => rfl
  | cons c cs ih =>
    rw [List.foldl_cons, List.foldl_cons, ih, ih (0 + c.utf8Size)]
    omega

theorem byteLength_cons (c : Char) (cs : List Char) :
    byteLength (c :: cs) = c.utf8Size + byteLength cs := by
  rw [byteLength, List.foldl_cons, foldl_utf8Size, Nat.zero_add]

end Text

def Cursor.between (before after : List Char) : Cursor :=
  ⟨Text.byteLength before, before.getLast?, after⟩

def Cursor.past (c : Cursor) (read rest : List Char) : Cursor :=
  ⟨c.offset + Text.byteLength read, read.getLast?.or c.before, rest⟩

theorem Cursor.past_nil (c : Cursor) : c.past [] c.rest = c := by
  simp [Cursor.past]

theorem Cursor.past_cons (c : Cursor) (x : Char) (read rest : List Char) :
    c.past (x :: read) rest =
      Cursor.past ⟨c.offset + x.utf8Size, some x, read ++ rest⟩ read rest := by
  have hlast : (x :: read).getLast?.or c.before = read.getLast?.or (some x) := by
    rw [List.getLast?_cons]
    cases read.getLast? <;> rfl
  simp only [Cursor.past, Text.byteLength_cons, hlast, Nat.add_assoc]

namespace Pattern

def Matches (p : Pattern) (text : List Char) : Prop :=
  ∃ before after, text = before ++ after ∧ p.ends (.between before after) ≠ []

theorem end?_eq_none_iff (p : Pattern) (c : Cursor) : p.end? c = none ↔ p.ends c = [] := by
  rw [end?_eq_head?, List.head?_eq_none_iff]

/-- A scan that may resume anywhere finds nothing exactly when no split of what is left matches. -/
theorem matchesFrom_eq_nil_iff (p : Pattern) (offset : Nat) (last : Option Char)
    (text : List Char) :
    p.matchesFrom 0 offset last text = [] ↔
      ∀ before after, text = before ++ after →
        p.ends (Cursor.past ⟨offset, last, text⟩ before after) = [] := by
  induction text generalizing offset last with
  | nil =>
    have hscan : p.matchesFrom 0 offset last [] = [] ↔ p.ends ⟨offset, last, []⟩ = [] := by
      rw [← end?_eq_none_iff, matchesFrom]
      cases p.end? ⟨offset, last, []⟩ <;> simp
    rw [hscan]
    constructor
    · intro h before after hsplit
      obtain ⟨rfl, rfl⟩ := List.append_eq_nil_iff.1 hsplit.symm
      rw [Cursor.past_nil ⟨offset, last, []⟩]
      exact h
    · intro h
      simpa [Cursor.past] using h [] [] rfl
  | cons x rest ih =>
    have hscan : p.matchesFrom 0 offset last (x :: rest) = [] ↔
        p.ends ⟨offset, last, x :: rest⟩ = [] ∧
          p.matchesFrom 0 (offset + x.utf8Size) (some x) rest = [] := by
      rw [← end?_eq_none_iff, matchesFrom]
      cases p.end? ⟨offset, last, x :: rest⟩ <;> simp
    rw [hscan, ih]
    constructor
    · rintro ⟨hhere, hbehind⟩ before after hsplit
      cases before with
      | nil =>
        rw [List.nil_append] at hsplit
        subst hsplit
        rw [Cursor.past_nil ⟨offset, last, x :: rest⟩]
        exact hhere
      | cons y before =>
        obtain ⟨rfl, hrest⟩ := List.cons_eq_cons.1 hsplit
        rw [Cursor.past_cons, ← List.append_eq, ← hrest]
        exact hbehind before after hrest
    · intro h
      refine ⟨by simpa [Cursor.past] using h [] (x :: rest) rfl, ?_⟩
      intro before after hsplit
      have hat := h (x :: before) after (by rw [hsplit, List.cons_append])
      rwa [Cursor.past_cons, ← hsplit] at hat

/-- The scan from the left finds a match if there is one anywhere. -/
theorem occursIn_iff_matches (p : Pattern) (text : List Char) :
    p.occursIn text = true ↔ p.Matches text := by
  have hplace : ∀ before after : List Char,
      Cursor.past ⟨0, none, text⟩ before after = .between before after := by
    intro before after
    simp [Cursor.past, Cursor.between]
  unfold occursIn matchesIn Matches
  rw [Bool.not_eq_true', List.isEmpty_eq_false_iff, ne_eq, matchesFrom_eq_nil_iff]
  simp only [hplace]
  grind

theorem occursIn_eq_false_iff (p : Pattern) (text : List Char) :
    p.occursIn text = false ↔ ¬ p.Matches text := by
  rw [← occursIn_iff_matches, Bool.not_eq_true]

@[simp] theorem ends_sequence_nil (c : Cursor) : (sequence []).ends c = [c] :=
  rfl

@[simp] theorem ends_sequence_cons (p : Pattern) (ps : List Pattern) (c : Cursor) :
    (sequence (p :: ps)).ends c = (p.ends c).flatMap (sequence ps).ends := by
  cases ps with
  | nil =>
    have hstay : (sequence []).ends = fun d => [d] := rfl
    rw [hstay, List.flatMap_singleton']
    rfl
  | cons q qs => rfl

/-- A literal is read in one way, and only where it stands. -/
theorem ends_literal (s : String) (c : Cursor) :
    (literal s).ends c =
      if s.toList <+: c.rest then [c.past s.toList (c.rest.drop s.toList.length)] else [] := by
  unfold literal
  induction s.toList generalizing c with
  | nil => simp [Cursor.past_nil]
  | cons x cs ih =>
    obtain ⟨offset, before, text⟩ := c
    cases text with
    | nil => simp [ends]
    | cons y rest =>
      rw [List.map_cons, ends_sequence_cons]
      simp only [ends, CharSet.contains, beq_iff_eq, List.cons_prefix_cons]
      by_cases hxy : y = x
      · subst hxy
        simp only [if_true, List.flatMap_singleton, ih, true_and, List.length_cons,
          List.drop_succ_cons]
        by_cases hcs : cs <+: rest
        · obtain ⟨tail, rfl⟩ := hcs
          simp [Cursor.past_cons]
        · simp [hcs]
      · have hyx : ¬ x = y := fun h => hxy h.symm
        simp [hxy, hyx]

theorem ends_literal_ne_nil_iff (s : String) (c : Cursor) :
    (literal s).ends c ≠ [] ↔ s.toList <+: c.rest := by
  rw [ends_literal]
  split <;> simp_all

/-- A pattern that asks for the start of the text matches there or nowhere. -/
theorem matches_textStart_iff (q : Pattern) (text : List Char) :
    (seq textStart q).Matches text ↔ q.ends (.start text) ≠ [] := by
  constructor
  · rintro ⟨before, after, rfl, hends⟩
    cases before with
    | nil => simpa [ends, Cursor.between, Cursor.start] using hends
    | cons x before => simp [ends, Cursor.between] at hends
  · intro h
    exact ⟨[], text, rfl, by simpa [ends, Cursor.between, Cursor.start] using h⟩

/-- A literal matches exactly the texts that it is a part of. -/
theorem matches_literal_iff (s : String) (text : List Char) :
    (literal s).Matches text ↔ s.toList <:+: text := by
  constructor
  · rintro ⟨before, after, rfl, hends⟩
    obtain ⟨rest, hrest⟩ := (ends_literal_ne_nil_iff s _).1 hends
    exact ⟨before, rest, by rw [List.append_assoc, hrest]; rfl⟩
  · rintro ⟨before, rest, rfl⟩
    refine ⟨before, s.toList ++ rest, by rw [List.append_assoc], ?_⟩
    exact (ends_literal_ne_nil_iff s _).2 (List.prefix_append _ _)

end Pattern

end PlanAudit
