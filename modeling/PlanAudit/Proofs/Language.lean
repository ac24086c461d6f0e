import Mathlib.Computability.Language
import PlanAudit.Proofs.Replacement

/-! The words that a pattern reads, as a language. A pattern that never looks around itself ends
exactly behind the words of its language, in whatever order the engine tries them. -/
namespace PlanAudit

open scoped Computability

theorem Text.byteLength_pos {word : List Char} (h : word ≠ []) : 0 < byteLength word := by
  obtain ⟨x, rest, rfl⟩ := List.exists_cons_of_ne_nil h
  have hpos := x.utf8Size_pos
  rw [byteLength_cons]
  omega

namespace Pattern

/-- Where a pattern only looks around, it reads nothing. -/
def language : Pattern → Language Char
  | one set => {word | ∃ x, set.contains x = true ∧ word = [x]}
  | seq p q => p.language * q.language
  | alt p q => p.language + q.language
  | many p => p.language∗
  | _ => 1

/-- What the pattern reads does not depend on what stands around it. -/
def blind : Pattern → Bool
  | seq p q => p.blind && q.blind
  | alt p q => p.blind && q.blind
  | many p => p.blind
  | wordEdge => false
  | textStart => false
  | textEnd => false
  | _ => true

section Words

variable {p : Pattern} {c d : Cursor}

private theorem exists_words_of_mem_rounds
    (hstep : ∀ {c d}, d ∈ p.ends c → ∃ word ∈ p.language, c.rest = word ++ d.rest)
    {room : List Char} (hd : d ∈ rounds (fun e => p.ends e) room c) :
    ∃ word ∈ p.language∗, c.rest = word ++ d.rest := by
  have hstop : ∃ word ∈ p.language∗, d.rest = word ++ d.rest :=
    ⟨[], Language.nil_mem_kstar _, rfl⟩
  induction room generalizing c with
  | nil => exact List.mem_singleton.1 hd ▸ hstop
  | cons x room ih =>
    rcases List.mem_append.1 hd with hmore | hlast
    · obtain ⟨e, he, hde⟩ := List.mem_flatMap.1 hmore
      obtain ⟨word, hword, hc⟩ := hstep (List.mem_of_mem_filter he)
      obtain ⟨more, hwords, hrest⟩ := ih hde
      obtain ⟨words, rfl, hall⟩ := Language.mem_kstar.1 hwords
      refine ⟨(word :: words).flatten, Language.join_mem_kstar ?_, ?_⟩
      · exact List.forall_mem_cons.2 ⟨hword, hall⟩
      · rw [hc, hrest, List.flatten_cons, List.append_assoc]
    · exact List.mem_singleton.1 hlast ▸ hstop

/-- What lies between the start and an end of a match is a word of the language. -/
theorem exists_word_of_mem_ends (hd : d ∈ p.ends c) :
    ∃ word ∈ p.language, c.rest = word ++ d.rest := by
  have hstay : ∀ {c d : Cursor} {test : Bool}, d ∈ (if test then [c] else []) →
      ∃ word ∈ (1 : Language Char), c.rest = word ++ d.rest := by
    intro c d test hd
    split at hd
    · exact List.mem_singleton.1 hd ▸ ⟨[], Language.nil_mem_one, rfl⟩
    · cases hd
  induction p generalizing c d with
  | empty => exact List.mem_singleton.1 hd ▸ ⟨[], Language.nil_mem_one, rfl⟩
  | one set =>
    cases hrest : c.rest with
    | nil => simp [ends, hrest] at hd
    | cons x rest =>
      simp only [ends, hrest] at hd
      split at hd
      case isTrue hx => exact List.mem_singleton.1 hd ▸ ⟨[x], ⟨x, hx, rfl⟩, rfl⟩
      case isFalse => cases hd
  | seq p q hp hq =>
    obtain ⟨e, he, hde⟩ := List.mem_flatMap.1 hd
    obtain ⟨word, hword, hc⟩ := hp he
    obtain ⟨more, hmore, hrest⟩ := hq hde
    refine ⟨word ++ more, Language.append_mem_mul hword hmore, ?_⟩
    rw [hc, hrest, List.append_assoc]
  | alt p q hp hq =>
    rcases List.mem_append.1 hd with hd | hd
    · obtain ⟨word, hword, hc⟩ := hp hd
      exact ⟨word, .inl hword, hc⟩
    · obtain ⟨word, hword, hc⟩ := hq hd
      exact ⟨word, .inr hword, hc⟩
  | many p hp => exact exists_words_of_mem_rounds hp hd
  | wordEdge => exact hstay hd
  | textStart => exact hstay hd
  | textEnd => exact hstay hd

private theorem self_mem_rounds (step : Cursor → List Cursor) (room : List Char) (c : Cursor) :
    c ∈ rounds step room c := by
  cases room with
  | nil => exact List.mem_singleton_self c
  | cons x room => exact List.mem_append_right _ (List.mem_singleton_self c)

/-- Rounds that read one word each come to the end of all the words. -/
theorem mem_rounds_of_words {step : Cursor → List Cursor} {words : List (List Char)}
    (hstep : ∀ word ∈ words, word ≠ [] ∧
      ∀ c rest, c.rest = word ++ rest → c.past word rest ∈ step c)
    {room : List Char} (hroom : words.flatten.length ≤ room.length) {rest : List Char}
    (hrest : c.rest = words.flatten ++ rest) : c.past words.flatten rest ∈ rounds step room c := by
  induction words generalizing c room with
  | nil =>
    obtain rfl : rest = c.rest := hrest.symm
    rw [List.flatten_nil, Cursor.past_nil]
    exact self_mem_rounds step room c
  | cons word words ih =>
    obtain ⟨⟨hword, hread⟩, hwords⟩ := List.forall_mem_cons.1 hstep
    rw [List.flatten_cons, List.append_assoc] at hrest
    rw [List.flatten_cons, List.length_append] at hroom
    have hlength := List.length_pos_of_ne_nil hword
    cases room with
    | nil =>
      rw [List.length_nil] at hroom
      omega
    | cons x room =>
      rw [List.length_cons] at hroom
      have hfurther : c.offset < (c.past word (words.flatten ++ rest)).offset :=
        Nat.lt_add_of_pos_right (Text.byteLength_pos hword)
      refine List.mem_append_left _ (List.mem_flatMap.2 ⟨c.past word (words.flatten ++ rest), ?_, ?_⟩)
      · exact List.mem_filter.2 ⟨hread c _ hrest, decide_eq_true hfurther⟩
      · rw [List.flatten_cons, Cursor.past_append]
        exact ih hwords (by omega) rfl

/-- A match of a pattern that does not look around can end behind every word of the language. -/
theorem past_mem_ends (hp : p.blind = true) {word rest : List Char} (hword : word ∈ p.language)
    (hrest : c.rest = word ++ rest) : c.past word rest ∈ p.ends c := by
  induction p generalizing c word rest with
  | empty =>
    obtain rfl := (Language.mem_one word).1 hword
    obtain rfl : rest = c.rest := hrest.symm
    rw [Cursor.past_nil]
    exact List.mem_singleton_self c
  | one set =>
    obtain ⟨x, hx, rfl⟩ := hword
    rw [List.singleton_append] at hrest
    simp [ends, hrest, hx, Cursor.past, Text.byteLength_cons]
  | seq p q ihp ihq =>
    obtain ⟨hpp, hpq⟩ := Bool.and_eq_true_iff.1 hp
    obtain ⟨first, hfirst, second, hsecond, rfl⟩ := Language.mem_mul.1 hword
    rw [List.append_assoc] at hrest
    rw [Cursor.past_append]
    exact List.mem_flatMap.2 ⟨_, ihp hpp hfirst hrest, ihq hpq hsecond rfl⟩
  | alt p q ihp ihq =>
    obtain ⟨hpp, hpq⟩ := Bool.and_eq_true_iff.1 hp
    rcases hword with hword | hword
    · exact List.mem_append_left _ (ihp hpp hword hrest)
    · exact List.mem_append_right _ (ihq hpq hword hrest)
  | many p ih =>
    -- rounds that read nothing are left out, on both sides
    obtain ⟨words, rfl, hwords⟩ := Language.mem_kstar_iff_exists_nonempty.1 hword
    refine mem_rounds_of_words (fun word hmem => ?_) ?_ hrest
    · exact ⟨(hwords word hmem).2, fun c rest hc => ih hp (hwords word hmem).1 hc⟩
    · rw [hrest, List.length_append]
      exact Nat.le_add_right _ _
  | _ => cases hp

theorem ends_ne_nil_iff (hp : p.blind = true) :
    p.ends c ≠ [] ↔ ∃ word ∈ p.language, word <+: c.rest := by
  constructor
  · intro h
    obtain ⟨d, hd⟩ := List.exists_mem_of_ne_nil _ h
    obtain ⟨word, hword, hrest⟩ := exists_word_of_mem_ends hd
    exact ⟨word, hword, d.rest, hrest.symm⟩
  · rintro ⟨word, hword, rest, hrest⟩
    exact List.ne_nil_of_mem (past_mem_ends hp hword hrest.symm)

/-- A pattern that does not look around matches the texts that have a word of its language in them. -/
theorem matches_iff_exists_infix (hp : p.blind = true) (text : List Char) :
    p.Matches text ↔ ∃ word ∈ p.language, word <:+: text := by
  constructor
  · rintro ⟨before, after, rfl, hends⟩
    obtain ⟨word, hword, hprefix⟩ := (ends_ne_nil_iff hp).1 hends
    exact ⟨word, hword, hprefix.isInfix.trans (List.suffix_append before after).isInfix⟩
  · rintro ⟨word, hword, before, after, rfl⟩
    refine ⟨before, word ++ after, List.append_assoc _ _ _, ?_⟩
    exact (ends_ne_nil_iff hp).2 ⟨word, hword, List.prefix_append word after⟩

end Words

theorem mem_language_seq {p q : Pattern} {word : List Char} :
    word ∈ (seq p q).language ↔
      ∃ first ∈ p.language, ∃ second ∈ q.language, first ++ second = word :=
  Language.mem_mul

theorem mem_language_many {p : Pattern} {word : List Char} :
    word ∈ (many p).language ↔
      ∃ words : List (List Char), word = words.flatten ∧ ∀ part ∈ words, part ∈ p.language :=
  Language.mem_kstar

theorem language_sequence_cons (p : Pattern) (ps : List Pattern) :
    (sequence (p :: ps)).language = p.language * (sequence ps).language := by
  cases ps with
  | nil => exact (mul_one p.language).symm
  | cons q qs => rfl

/-- A pattern that reads one character after another. -/
theorem mem_language_sequence_one (set : Char → CharSet) (cs word : List Char) :
    word ∈ (sequence (cs.map fun c => one (set c))).language ↔
      List.Forall₂ (fun c x => (set c).contains x = true) cs word := by
  induction cs generalizing word with
  | nil => exact (Language.mem_one word).trans List.forall₂_nil_left_iff.symm
  | cons c cs ih =>
    rw [List.map_cons, language_sequence_cons, Language.mem_mul, List.forall₂_cons_left_iff]
    constructor
    · rintro ⟨_, ⟨x, hx, rfl⟩, rest, hrest, rfl⟩
      exact ⟨x, rest, hx, (ih rest).1 hrest, rfl⟩
    · rintro ⟨x, rest, hx, hrest, rfl⟩
      exact ⟨[x], ⟨x, hx, rfl⟩, rest, (ih rest).2 hrest, rfl⟩

theorem mem_language_literal (s : String) (word : List Char) :
    word ∈ (literal s).language ↔ word = s.toList := by
  have hset : (fun c x => (CharSet.only c).contains x = true) = Eq := by
    funext c x
    exact propext (beq_iff_eq.trans eq_comm)
  rw [literal, mem_language_sequence_one, hset, List.forall₂_eq_eq_eq, eq_comm]

theorem mem_language_caseless (s : String) (word : List Char) :
    word ∈ (caseless s).language ↔ word.map Text.foldChar = s.toList.map Text.foldChar := by
  have hset : (fun c x => (CharSet.caseless c).contains x = true) =
      fun c x => Text.foldChar c = Text.foldChar x := by
    funext c x
    exact propext (beq_iff_eq.trans eq_comm)
  rw [caseless, mem_language_sequence_one, hset, ← List.forall₂_map_right_iff,
    ← List.forall₂_map_left_iff, List.forall₂_eq_eq_eq, eq_comm]

theorem mem_language_oneOf (p : Pattern) (ps : List Pattern) (word : List Char) :
    word ∈ (oneOf p ps).language ↔ ∃ q ∈ p :: ps, word ∈ q.language := by
  induction ps generalizing p with
  | nil => simp [oneOf]
  | cons q qs ih =>
    rw [List.exists_mem_cons_iff, ← ih q]
    exact Iff.rfl

theorem mem_language_many_one (set : CharSet) (word : List Char) :
    word ∈ (many (one set)).language ↔ ∀ x ∈ word, set.contains x = true := by
  constructor
  · intro h x hx
    obtain ⟨words, rfl, hwords⟩ := mem_language_many.1 h
    obtain ⟨single, hsingle, hmem⟩ := List.mem_flatten.1 hx
    obtain ⟨y, hy, rfl⟩ := hwords single hsingle
    rw [List.mem_singleton.1 hmem]
    exact hy
  · intro h
    refine mem_language_many.2 ⟨word.map fun x => [x], ?_, ?_⟩
    · rw [← List.flatMap_def, List.flatMap_singleton']
    · rintro _ hsingle
      obtain ⟨x, hx, rfl⟩ := List.mem_map.1 hsingle
      exact ⟨x, h x hx, rfl⟩

theorem mem_language_many1_one (set : CharSet) (word : List Char) :
    word ∈ (many1 (one set)).language ↔ word ≠ [] ∧ ∀ x ∈ word, set.contains x = true := by
  have hseq : word ∈ (many1 (one set)).language ↔
      ∃ x rest, set.contains x = true ∧ rest ∈ (many (one set)).language ∧ x :: rest = word := by
    constructor
    · rintro ⟨_, ⟨x, hx, rfl⟩, rest, hrest, rfl⟩
      exact ⟨x, rest, hx, hrest, rfl⟩
    · rintro ⟨x, rest, hx, hrest, rfl⟩
      exact ⟨[x], ⟨x, hx, rfl⟩, rest, hrest, rfl⟩
  rw [hseq]
  constructor
  · rintro ⟨x, rest, hx, hrest, rfl⟩
    exact ⟨List.cons_ne_nil x rest,
      List.forall_mem_cons.2 ⟨hx, (mem_language_many_one set rest).1 hrest⟩⟩
  · rintro ⟨hne, hall⟩
    obtain ⟨x, rest, rfl⟩ := List.exists_cons_of_ne_nil hne
    obtain ⟨hx, hrest⟩ := List.forall_mem_cons.1 hall
    exact ⟨x, rest, hx, (mem_language_many_one set rest).2 hrest, rfl⟩

theorem ends_sequence_append (ps qs : List Pattern) (c : Cursor) :
    (sequence (ps ++ qs)).ends c = ((sequence ps).ends c).flatMap (sequence qs).ends := by
  induction ps generalizing c with
  | nil => simp
  | cons p ps ih =>
    rw [List.cons_append, ends_sequence_cons, ends_sequence_cons, List.flatMap_assoc]
    exact List.flatMap_congr fun d _ => ih d

/-- Between the start and the end of the text, a pattern matches just the words of its language. -/
theorem matches_whole_iff {ps : List Pattern} (hps : (sequence ps).blind = true)
    (text : List Char) :
    (sequence (textStart :: (ps ++ [textEnd]))).Matches text ↔ text ∈ (sequence ps).language := by
  have hseq : sequence (textStart :: (ps ++ [textEnd])) =
      seq textStart (sequence (ps ++ [textEnd])) := by
    cases ps <;> rfl
  have hstop : ∀ d : Cursor, (sequence [textEnd]).ends d ≠ [] ↔ d.rest = [] := by
    intro d
    simp [sequence, ends]
  rw [hseq, matches_textStart_iff, ends_sequence_append, ne_eq, List.flatMap_eq_nil_iff]
  push Not
  simp only [hstop]
  constructor
  · rintro ⟨d, hd, hrest⟩
    obtain ⟨word, hword, htext⟩ := exists_word_of_mem_ends hd
    rw [hrest, List.append_nil] at htext
    have htext : text = word := htext
    exact htext ▸ hword
  · intro h
    exact ⟨_, past_mem_ends hps h (List.append_nil text).symm, rfl⟩

end Pattern

end PlanAudit
