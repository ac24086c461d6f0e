import Mathlib.Data.List.Infix
import PlanAudit.Proofs.Replacement

/-! Where words stand in a text. If the leftmost occurrences of some words give way to a filler,
then exactly those words are left that stand apart from them. -/
namespace PlanAudit

namespace Text

/-- The characters of a text from the place `start` up to the place `stop`. -/
structure Span where
  start : Nat
  stop : Nat
  deriving Repr, DecidableEq

def Span.of (word : List Char) (place : Nat) : Span :=
  ⟨place, place + word.length⟩

def Span.Overlaps (a b : Span) : Prop :=
  a.start < b.stop ∧ b.start < a.stop

def StandsAt (word text : List Char) (place : Nat) : Prop :=
  word <+: text.drop place

theorem infix_iff_exists_standsAt {word text : List Char} :
    word <:+: text ↔ ∃ place, StandsAt word text place := by
  constructor
  · rintro ⟨front, back, rfl⟩
    refine ⟨front.length, back, ?_⟩
    rw [List.append_assoc, List.drop_left]
  · rintro ⟨place, hprefix⟩
    exact hprefix.isInfix.trans (List.drop_suffix place text).isInfix

/-- The occurrences of some words in a text, from a place on and from left to right: the leftmost
one, then the leftmost one behind it, and so on. -/
inductive Leftmost (words : List String) (text : List Char) : (place : Nat) → List Span → Prop where
  | none {place : Nat} :
    (∀ i, place ≤ i → ∀ word ∈ words, ¬ StandsAt word.toList text i) →
    Leftmost words text place []
  | next {place i : Nat} {word : String} {spans : List Span} :
    place ≤ i → word ∈ words → StandsAt word.toList text i →
    (∀ j, place ≤ j → j < i → ∀ other ∈ words, ¬ StandsAt other.toList text j) →
    Leftmost words text (i + word.toList.length) spans →
    Leftmost words text place (.of word.toList i :: spans)

variable {words : List String} {text : List Char}

theorem Leftmost.of_succ {place : Nat} {spans : List Span}
    (h : Leftmost words text (place + 1) spans)
    (hnone : ∀ word ∈ words, ¬ StandsAt word.toList text place) :
    Leftmost words text place spans := by
  cases h with
  | none hrest =>
    refine .none fun i hi => ?_
    rcases Nat.eq_or_lt_of_le hi with rfl | hlt
    · exact hnone
    · exact hrest i hlt
  | next hle hword hstands hrest hlater =>
    refine .next (by omega) hword hstands (fun j hj hji => ?_) hlater
    rcases Nat.eq_or_lt_of_le hj with rfl | hlt
    · exact hnone
    · exact hrest j hlt hji

/-- Each of the stretches is that of a word. -/
theorem Leftmost.exists_word {place : Nat} {spans : List Span} (h : Leftmost words text place spans)
    {span : Span} (hspan : span ∈ spans) :
    ∃ word ∈ words, ∃ i, place ≤ i ∧ StandsAt word.toList text i ∧ span = .of word.toList i := by
  induction h with
  | none => cases hspan
  | @next place i word spans hle hword hstands _ _ ih =>
    rcases List.mem_cons.1 hspan with rfl | hspan
    · exact ⟨word, hword, i, hle, hstands, rfl⟩
    · obtain ⟨other, hother, j, hj, hfound⟩ := ih hspan
      exact ⟨other, hother, j, by omega, hfound⟩

/-- Of two words at one place one begins with the other. -/
theorem Leftmost.unique (hfree : ∀ a ∈ words, ∀ b ∈ words, a.toList <+: b.toList → a = b)
    {place : Nat} {spans others : List Span} (h : Leftmost words text place spans)
    (h' : Leftmost words text place others) : spans = others := by
  induction h generalizing others with
  | none hnone =>
    cases h' with
    | none => rfl
    | next hle hword hstands => exact absurd hstands (hnone _ hle _ hword)
  | @next place i word spans hle hword hstands hfirst _ ih =>
    cases h' with
    | none hnone => exact absurd hstands (hnone i hle word hword)
    | @next _ j other others hle' hother hstands' hfirst' hlater' =>
      obtain rfl : i = j := by
        rcases Nat.lt_trichotomy i j with hlt | heq | hgt
        · exact absurd hstands (hfirst' i hle hlt word hword)
        · exact heq
        · exact absurd hstands' (hfirst j hle' hgt other hother)
      obtain rfl : word = other := by
        rcases List.prefix_or_prefix_of_prefix hstands hstands' with hprefix | hprefix
        · exact hfree word hword other hother hprefix
        · exact (hfree other hother word hword hprefix).symm
      rw [ih hlater']

theorem Leftmost.bounds (hwords : ∀ word ∈ words, word.toList ≠ []) {place : Nat}
    {spans : List Span} (h : Leftmost words text place spans) :
    ∀ span ∈ spans, place ≤ span.start ∧ span.start < span.stop := by
  intro span hspan
  obtain ⟨word, hword, i, hi, _, rfl⟩ := h.exists_word hspan
  have hlength := List.length_pos_of_ne_nil (hwords word hword)
  simp only [Span.of]
  omega

def StandsApart (word text : List Char) (spans : List Span) (place : Nat) : Prop :=
  StandsAt word text place ∧ ∀ span ∈ spans, ¬ (Span.of word place).Overlaps span

private theorem drop_add_of_drop_eq_append {place : Nat} {front rest : List Char}
    (h : text.drop place = front ++ rest) : text.drop (place + front.length) = rest := by
  rw [← List.drop_drop, h, List.drop_left]

private theorem drop_succ_of_drop_eq_cons {place : Nat} {x : Char} {rest : List Char}
    (h : text.drop place = x :: rest) : text.drop (place + 1) = rest :=
  @drop_add_of_drop_eq_append text place [x] rest h

theorem standsApart_cons {spans : List Span} {place : Nat}
    (hspans : ∀ span ∈ spans, place + 1 ≤ span.start ∧ span.start < span.stop) {x y : Char}
    {rest word : List Char} (hrest : text.drop place = x :: rest) :
    StandsApart (y :: word) text spans place ↔ y = x ∧ StandsApart word text spans (place + 1) := by
  have hstands : StandsAt (y :: word) text place ↔ y = x ∧ StandsAt word text (place + 1) := by
    rw [StandsAt, StandsAt, hrest, drop_succ_of_drop_eq_cons hrest, List.cons_prefix_cons]
  have hapart : ∀ span ∈ spans, ((Span.of (y :: word) place).Overlaps span ↔
      (Span.of word (place + 1)).Overlaps span) := by
    intro span hspan
    obtain ⟨hstart, hstop⟩ := hspans span hspan
    simp only [Span.Overlaps, Span.of, List.length_cons]
    omega
  rw [StandsApart, StandsApart, hstands, and_assoc]
  refine and_congr_right fun _ => and_congr_right fun _ => ?_
  exact forall₂_congr fun span hspan => not_congr (hapart span hspan)

theorem standsApart_nil {spans : List Span} {place : Nat}
    (hspans : ∀ span ∈ spans, place ≤ span.start) : StandsApart [] text spans place := by
  refine ⟨List.nil_prefix, fun span hspan => ?_⟩
  have hstart := hspans span hspan
  simp only [Span.Overlaps, Span.of, List.length_nil]
  omega

/-- What is left of the text from the place on, after the leftmost occurrences of the words have
given way to the filler, holds the words that stand apart from the stretches. -/
structure Stripped (words : List String) (filler : Char) (text : List Char) (place : Nat)
    (spans : List Span) (out : List Char) : Prop where
  leftmost : Leftmost words text place spans
  prefix_iff : ∀ {word : List Char}, filler ∉ word →
    (word <+: out ↔ StandsApart word text spans place)
  infix_iff : ∀ {word : List Char}, word ≠ [] → filler ∉ word →
    (word <:+: out ↔ ∃ i, place ≤ i ∧ StandsApart word text spans i)

namespace Stripped

variable {filler : Char} {place : Nat}

theorem done (hwords : ∀ word ∈ words, word.toList ≠ []) (hrest : text.drop place = []) :
    Stripped words filler text place [] [] := by
  have hstands : ∀ {word : List Char} {i : Nat}, place ≤ i →
      (StandsAt word text i ↔ word = []) := by
    intro word i hi
    have hnil : text.drop i = [] := by
      rw [List.drop_eq_nil_iff] at hrest ⊢
      omega
    rw [StandsAt, hnil, List.prefix_nil]
  constructor
  · exact .none fun i hi word hword h => hwords word hword ((hstands hi).1 h)
  · intro word _
    simp [StandsApart, hstands (Nat.le_refl place)]
  · intro word hword _
    rw [List.infix_nil]
    constructor
    · exact fun h => absurd h hword
    · rintro ⟨i, hi, h, _⟩
      exact (hstands hi).1 h

variable {spans : List Span} {out : List Char}

theorem keep (hwords : ∀ word ∈ words, word.toList ≠ []) {x : Char} {rest : List Char}
    (hrest : text.drop place = x :: rest)
    (hnone : ∀ word ∈ words, ¬ StandsAt word.toList text place)
    (h : Stripped words filler text (place + 1) spans out) :
    Stripped words filler text place spans (x :: out) := by
  have hspans := h.leftmost.bounds hwords
  have hprefix : ∀ {word : List Char}, filler ∉ word →
      (word <+: x :: out ↔ StandsApart word text spans place) := by
    intro word hfiller
    cases word with
    | nil =>
      have hapart : StandsApart [] text spans place :=
        standsApart_nil fun span hspan => by have := hspans span hspan; omega
      simp [hapart]
    | cons y word =>
      rw [List.cons_prefix_cons, standsApart_cons hspans hrest,
        h.prefix_iff (List.not_mem_of_not_mem_cons hfiller)]
  refine ⟨h.leftmost.of_succ hnone, hprefix, ?_⟩
  intro word hword hfiller
  rw [List.infix_cons_iff, hprefix hfiller, h.infix_iff hword hfiller]
  constructor
  · rintro (hhere | ⟨i, hi, hlater⟩)
    · exact ⟨place, Nat.le_refl place, hhere⟩
    · exact ⟨i, by omega, hlater⟩
  · rintro ⟨i, hi, hstands⟩
    rcases Nat.eq_or_lt_of_le hi with rfl | hlt
    · exact .inl hstands
    · exact .inr ⟨i, hlt, hstands⟩

/-- A word that has no filler in it lies on one side of the filler. -/
theorem swap (hwords : ∀ word ∈ words, word.toList ≠ []) {gone : String} (hgone : gone ∈ words)
    (hstands : StandsAt gone.toList text place)
    (h : Stripped words filler text (place + gone.toList.length) spans out) :
    Stripped words filler text place (.of gone.toList place :: spans) (filler :: out) := by
  have hlength := List.length_pos_of_ne_nil (hwords gone hgone)
  have hspans := h.leftmost.bounds hwords
  -- The stretch that goes away takes up all places where a word would run into the filler.
  have hpast : ∀ {word : List Char} {i : Nat}, word ≠ [] → place ≤ i →
      (¬ (Span.of word i).Overlaps (.of gone.toList place) ↔ place + gone.toList.length ≤ i) := by
    intro word i hword hi
    have := List.length_pos_of_ne_nil hword
    simp only [Span.Overlaps, Span.of]
    omega
  constructor
  · exact .next (Nat.le_refl place) hgone hstands (fun j hj hlt => by omega) h.leftmost
  · intro word hfiller
    cases word with
    | nil =>
      have hapart : StandsApart [] text (.of gone.toList place :: spans) place := by
        refine standsApart_nil fun span hspan => ?_
        rcases List.mem_cons.1 hspan with rfl | hspan
        · exact Nat.le_refl place
        · have := hspans span hspan
          omega
      simp [hapart]
    | cons y word =>
      constructor
      · intro hprefix
        obtain ⟨rfl, _⟩ := List.cons_prefix_cons.1 hprefix
        exact absurd List.mem_cons_self hfiller
      · intro hapart
        have := (hpast (List.cons_ne_nil y word) (Nat.le_refl place)).1
          (hapart.2 _ List.mem_cons_self)
        omega
  · intro word hword hfiller
    have hprefix : ¬ word <+: filler :: out := by
      intro hprefix
      obtain ⟨y, word, rfl⟩ := List.exists_cons_of_ne_nil hword
      obtain ⟨rfl, _⟩ := List.cons_prefix_cons.1 hprefix
      exact hfiller List.mem_cons_self
    rw [List.infix_cons_iff, or_iff_right hprefix, h.infix_iff hword hfiller]
    constructor
    · rintro ⟨i, hi, hat, hapart⟩
      refine ⟨i, by omega, hat, List.forall_mem_cons.2 ⟨?_, hapart⟩⟩
      exact (hpast hword (by omega)).2 hi
    · rintro ⟨i, hi, hat, hapart⟩
      obtain ⟨hfirst, hapart⟩ := List.forall_mem_cons.1 hapart
      exact ⟨i, (hpast hword hi).1 hfirst, hat, hapart⟩

end Stripped

/-- An end of the one word agrees with the other word as far as both of them go. -/
def interlock (a b : List Char) : Bool :=
  a.tails.any fun tail => !tail.isEmpty && (tail.isPrefixOf b || b.isPrefixOf tail)

theorem StandsAt.drop {word : List Char} {place : Nat} (h : StandsAt word text place) {n : Nat}
    (hn : n ≤ word.length) : StandsAt (word.drop n) text (place + n) := by
  obtain ⟨rest, hrest⟩ := h
  refine ⟨rest, ?_⟩
  rw [← List.drop_drop, ← hrest, List.drop_append_of_le_length hn]

theorem StandsAt.interlock {a b : List Char} {i j : Nat} (ha : StandsAt a text i)
    (hb : StandsAt b text j) (hle : i ≤ j) (hlt : j < i + a.length) : interlock a b = true := by
  obtain ⟨n, rfl⟩ := Nat.exists_eq_add_of_le hle
  have htail : StandsAt (a.drop n) text (i + n) := ha.drop (by omega)
  have hne : a.drop n ≠ [] := by
    rw [ne_eq, List.drop_eq_nil_iff]
    omega
  rw [Text.interlock, List.any_eq_true]
  refine ⟨a.drop n, (List.mem_tails _ _).2 (List.drop_suffix n a), ?_⟩
  have hprefix := List.prefix_or_prefix_of_prefix htail hb
  simpa [hne] using hprefix

/-- Words that do not interlock have no character in common, wherever they stand. -/
theorem StandsAt.not_overlaps {a b : List Char} (hab : Text.interlock a b = false)
    (hba : Text.interlock b a = false) {i j : Nat} (ha : StandsAt a text i)
    (hb : StandsAt b text j) : ¬ (Span.of a i).Overlaps (.of b j) := by
  rintro ⟨hbefore, hafter⟩
  simp only [Span.of] at hbefore hafter
  rcases Nat.le_total i j with hle | hle
  · rw [ha.interlock hb hle hafter] at hab
    cases hab
  · rw [hb.interlock ha hle hbefore] at hba
    cases hba

end Text

namespace Pattern

structure ReadsWords (p : Pattern) (words : List String) : Prop where
  exists_word : ∀ {c d : Cursor}, p.end? c = some d → ∃ word ∈ words, c.rest = word.toList ++ d.rest
  not_prefix : ∀ {c : Cursor}, p.end? c = none → ∀ word ∈ words, ¬ word.toList <+: c.rest

theorem ends_oneOf (p : Pattern) (ps : List Pattern) (c : Cursor) :
    (oneOf p ps).ends c = (p :: ps).flatMap fun q => q.ends c := by
  induction ps generalizing p with
  | nil => simp [oneOf]
  | cons q qs ih =>
    rw [oneOf, ends, ih]
    rfl

theorem readsWords_oneOf (word : String) (words : List String) :
    ReadsWords (oneOf (literal word) (words.map literal)) (word :: words) := by
  have hends : ∀ c, (oneOf (literal word) (words.map literal)).ends c =
      (word :: words).flatMap fun other => (literal other).ends c := by
    intro c
    rw [ends_oneOf, ← List.map_cons, List.flatMap_map]
  constructor
  · intro c d hend
    have hmem := mem_ends_of_end? hend
    rw [hends, List.mem_flatMap] at hmem
    obtain ⟨other, hother, hmem⟩ := hmem
    rw [ends_literal] at hmem
    split_ifs at hmem with hprefix
    · obtain ⟨tail, htail⟩ := hprefix
      refine ⟨other, hother, ?_⟩
      rw [List.mem_singleton.1 hmem, Cursor.past, ← htail, List.drop_left]
    · cases hmem
  · intro c hend other hother
    rw [end?_eq_none_iff, hends, List.flatMap_eq_nil_iff] at hend
    exact fun hprefix => (ends_literal_ne_nil_iff other c).2 hprefix (hend other hother)

/-- One step of the replacement is one of the three ways to go on in the text. -/
theorem Replaced.stripped {p : Pattern} {words : List String} (hp : p.ReadsWords words)
    (hwords : ∀ word ∈ words, word.toList ≠ []) {filler : Char} {c : Cursor} {out : List Char}
    (h : Replaced p filler c out) {text : List Char} {place : Nat} (hc : text.drop place = c.rest) :
    ∃ spans, Text.Stripped words filler text place spans out := by
  induction h generalizing place with
  | done => exact ⟨[], .done hwords hc⟩
  | keep hnone _ ih =>
    obtain ⟨spans, hspans⟩ := ih (Text.drop_succ_of_drop_eq_cons hc)
    refine ⟨spans, .keep hwords hc (fun word hword => ?_) hspans⟩
    rw [Text.StandsAt, hc]
    exact hp.not_prefix hnone word hword
  | swap hend _ ih =>
    obtain ⟨word, hword, hrest⟩ := hp.exists_word hend
    rw [hrest] at hc
    obtain ⟨spans, hspans⟩ := ih (Text.drop_add_of_drop_eq_append hc)
    refine ⟨_, .swap hwords hword ?_ hspans⟩
    rw [Text.StandsAt, hc]
    exact List.prefix_append _ _

theorem stripped_replaceIn {p : Pattern} {words : List String} (hp : p.ReadsWords words)
    (hreads : p.reads = true) (hwords : ∀ word ∈ words, word.toList ≠ []) (filler : Char)
    (text : List Char) :
    ∃ spans, Text.Stripped words filler text 0 spans (p.replaceIn filler text) :=
  (replaced_replaceIn hreads filler text).stripped hp hwords rfl

end Pattern

end PlanAudit
