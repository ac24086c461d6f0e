import Mathlib.Data.List.DropRight
import PlanAudit.Proofs.Boundary
import PlanAudit.Proofs.Language
import PlanAudit.Rule.Wording

/-! Excerpts from a text. The bytes that an excerpt is cut from can be found by walking from byte to byte,
without leaving the text and without parting a character, and they hold the place that the excerpt is
about. What is found in a plan is never cut off by trimming the excerpt. -/
namespace PlanAudit

namespace Text

section Window

variable {lo hi offset : Nat} {cs : List Char}

theorem window_append (lo hi offset : Nat) (front back : List Char) :
    window lo hi offset (front ++ back) =
      window lo hi offset front ++ window lo hi (offset + byteLength front) back := by
  induction front generalizing offset with
  | nil => rw [List.nil_append, byteLength_nil, Nat.add_zero, window, List.nil_append]
  | cons c front ih =>
    simp only [List.cons_append, window, ih, byteLength_cons, Nat.add_assoc]
    split <;> rfl

private theorem window_eq_nil_of_le (h : offset + byteLength cs ≤ lo) :
    window lo hi offset cs = [] := by
  induction cs generalizing offset with
  | nil => rfl
  | cons c cs ih =>
    rw [byteLength_cons, ← Nat.add_assoc] at h
    rw [window, if_neg (by omega)]
    exact ih h

private theorem window_eq_nil_of_ge (h : hi ≤ offset) : window lo hi offset cs = [] := by
  induction cs generalizing offset with
  | nil => rfl
  | cons c cs ih =>
    rw [window, if_neg (by omega)]
    exact ih (Nat.le_add_right_of_le h)

/-- Characters that all have a byte in the window are all shown. -/
theorem window_eq_self (h : ∀ front c back, cs = front ++ c :: back →
      offset + byteLength front < hi ∧ lo < offset + byteLength front + c.utf8Size) :
    window lo hi offset cs = cs := by
  induction cs generalizing offset with
  | nil => rfl
  | cons c cs ih =>
    have hc : offset < hi ∧ lo < offset + c.utf8Size := h [] c cs rfl
    rw [window, if_pos hc, ih]
    intro front x back hsplit
    have hx := h (c :: front) x back (by rw [hsplit, List.cons_append])
    rw [byteLength_cons, ← Nat.add_assoc] at hx
    exact hx

/-- The window shows what stands between the boundaries around it. -/
theorem window_eq_part {front part back : List Char}
    (hlo : LastBoundary (encoded (front ++ part ++ back)) lo (byteLength front))
    (hhi : FirstBoundary (encoded (front ++ part ++ back))
      (min hi (byteLength (front ++ part ++ back))) (byteLength front + byteLength part)) :
    window lo hi 0 (front ++ part ++ back) = part := by
  have hbefore : window lo hi 0 front = [] := by
    apply window_eq_nil_of_le
    rw [Nat.zero_add]
    exact hlo.le
  have hpart : window lo hi (byteLength front) part = part := by
    refine window_eq_self fun first c rest hsplit => ?_
    subst hsplit
    -- a character of the part begins at a boundary before `hi` and ends at one behind `lo`
    have hbegin : isBoundary (encoded (front ++ (first ++ c :: rest) ++ back))
        (byteLength front + byteLength first) = true :=
      isBoundary_encoded_iff.2
        ⟨front ++ first, c :: rest ++ back, by simp, byteLength_append front first⟩
    have hend : isBoundary (encoded (front ++ (first ++ c :: rest) ++ back))
        (byteLength front + byteLength first + c.utf8Size) = true :=
      isBoundary_encoded_iff.2 ⟨front ++ first ++ [c], rest ++ back, by simp,
        by simp only [byteLength_append, byteLength_cons, byteLength_nil, Nat.add_zero]⟩
    simp only [byteLength_append, byteLength_cons] at hhi
    have hpos := c.utf8Size_pos
    have hfirst := hhi.first _ hbegin
    have hlast := hlo.last _ hend
    omega
  have hback : window lo hi (byteLength front + byteLength part) back = [] := by
    have hle := hhi.le
    rw [byteLength_append, byteLength_append] at hle
    cases back with
    | nil => rfl
    | cons c back =>
      have hpos := c.utf8Size_pos
      rw [byteLength_cons] at hle
      exact window_eq_nil_of_ge (by omega)
  rw [window_append, window_append, hbefore, Nat.zero_add, hpart, byteLength_append, Nat.zero_add,
    hback, List.nil_append, List.append_nil]

end Window

section Trim

def Unpadded (text : List Char) : Prop :=
  ∀ c, c ∈ text.head? ∨ c ∈ text.getLast? → isBlank c = false

instance (text : List Char) : Decidable (Unpadded text) :=
  decidable_of_iff
    ((text.head?.all fun c => !isBlank c) = true ∧ (text.getLast?.all fun c => !isBlank c) = true)
    (by simp [Unpadded, Option.all_eq_true, or_imp, forall_and])

private theorem dropWhile_append_of_head {keep : Char → Bool} (front : List Char) {back : List Char}
    (h : ∀ c ∈ back.head?, keep c = false) :
    (front ++ back).dropWhile keep = front.dropWhile keep ++ back := by
  rw [List.dropWhile_append]
  split_ifs with hempty
  · rw [List.isEmpty_iff.1 hempty, List.nil_append]
    cases back with
    | nil => rfl
    | cons c back => exact List.dropWhile_cons_of_neg (by simp [h c rfl])
  · rfl

/-- Trimming takes away only what stands around a part whose ends are not blank. -/
theorem trim_around {word : List Char} (hne : word ≠ []) (hword : Unpadded word)
    (before after : List Char) :
    trim (before ++ word ++ after) =
      before.dropWhile isBlank ++ word ++ after.rdropWhile isBlank := by
  have hfront : ∀ c ∈ (word ++ after).head?, isBlank c = false := by
    rw [List.head?_append_of_ne_nil _ hne]
    exact fun c hc => hword c (.inl hc)
  have hback : ∀ c ∈ (word.reverse ++ (before.dropWhile isBlank).reverse).head?,
      isBlank c = false := by
    rw [List.head?_append_of_ne_nil _ (List.reverse_ne_nil_iff.2 hne), List.head?_reverse]
    exact fun c hc => hword c (.inr hc)
  rw [trim, List.append_assoc, dropWhile_append_of_head before hfront]
  simp only [List.reverse_append, List.append_assoc]
  rw [dropWhile_append_of_head after.reverse hback]
  simp [List.rdropWhile]

theorem infix_trim {word part : List Char} (h : word <:+: part) (hword : Unpadded word) :
    word <:+: trim part := by
  by_cases hne : word = []
  · rw [hne]
    exact List.nil_infix
  · obtain ⟨before, after, rfl⟩ := h
    rw [trim_around hne hword]
    exact ⟨_, _, rfl⟩

end Trim

section Surroundings

variable {text : List Char} {most start stop radius lo hi : Nat}

/-- The excerpt as it is found in the bytes: a walk down from `radius` bytes before the place, a walk up
from `radius` bytes behind it, and what stands between the boundaries that are met. A sum never gets
beyond `most`. There is no result where a walk or the cut has none. -/
def excerpt? (most : Nat) (text : List Char) (start stop radius : Nat) : Option (List Char) := do
  let lo ← boundaryBelow (encoded text) (start - radius)
  let hi ← boundaryAbove (encoded text)
    (min (min (stop + radius) most) (encoded text).length)
  let part ← slice text lo hi
  return trim part

/-- The walks end at the bytes `lo` and `hi`, within the text, around the place and near it. -/
structure Surrounds (most : Nat) (text : List Char) (start stop radius lo hi : Nat) : Prop where
  below : boundaryBelow (encoded text) (start - radius) = some lo
  above : boundaryAbove (encoded text)
    (min (min (stop + radius) most) (encoded text).length) = some hi
  lo_le_start : lo ≤ start
  start_le : start ≤ lo + (radius + 3)
  stop_le_hi : stop ≤ hi
  hi_le : hi ≤ stop + (radius + 3)
  hi_le_length : hi ≤ (encoded text).length

/-- Around two boundaries of a text both walks have a result, and the window shows what stands between
their ends. -/
theorem exists_surrounds (hmost : (encoded text).length ≤ most) (hle : start ≤ stop)
    (hstart : isBoundary (encoded text) start = true)
    (hstop : isBoundary (encoded text) stop = true) (radius : Nat) :
    ∃ lo hi part, Surrounds most text start stop radius lo hi ∧ slice text lo hi = some part ∧
      window (start - radius) (stop + radius) 0 text = part := by
  have hlength := length_encoded text
  have hstopLe := le_length_of_isBoundary hstop
  obtain ⟨upper, hupper⟩ : ∃ upper, upper = min (min (stop + radius) most) (encoded text).length :=
    ⟨_, rfl⟩
  obtain ⟨lo, hbelow, hlo⟩ := exists_boundaryBelow (isBoundary_zero text) (start - radius)
  obtain ⟨hi, habove, hhi⟩ := exists_boundaryAbove (show upper ≤ (encoded text).length by omega)
  have hloLe := hlo.le
  have hloNear := hlo.near (by omega)
  have hhiLe := hhi.le
  have hhiNear := hhi.near (by omega)
  have hend := le_length_of_isBoundary hhi.boundary
  have hsurrounds : Surrounds most text start stop radius lo hi := by
    refine ⟨hbelow, hupper ▸ habove, ?_, ?_, ?_, ?_, hend⟩ <;> omega
  obtain ⟨front, part, back, rfl, rfl, rfl⟩ :=
    exists_append_of_isBoundary (show lo ≤ hi by omega) hlo.boundary hhi.boundary
  have hcapped : upper = min (stop + radius) (byteLength (front ++ part ++ back)) := by omega
  exact ⟨_, _, part, hsurrounds, slice_eq_of_append front part back,
    window_eq_part hlo (hcapped ▸ hhi)⟩

theorem Surrounds.excerpt?_eq (h : Surrounds most text start stop radius lo hi) {part : List Char}
    (hpart : slice text lo hi = some part) :
    excerpt? most text start stop radius = some (trim part) := by
  simp only [excerpt?, h.below, h.above, hpart, Option.bind_eq_bind, Option.bind_some]
  rfl

end Surroundings

private theorem isBlank_of_letter {c : Char} (hfirst : 0x41 ≤ c.toNat) (hlast : c.toNat ≤ 0x7A) :
    isBlank c = false := by
  simp only [isBlank, blanks, CodeRanges.covers, Bool.and_eq_false_iff, Bool.or_eq_false_iff,
    decide_eq_false_iff_not]
  omega

private theorem isBlank_toLower (c : Char) : isBlank c.toLower = isBlank c := by
  unfold Char.toLower
  split
  case isTrue hupper =>
    have hfirst : 0x41 ≤ c.toNat := hupper.1
    have hlast : c.toNat ≤ 0x5A := hupper.2
    have hlower : (c.val + ('a'.val - 'A'.val)).toNat = c.toNat + 32 := by
      have hshift : ('a'.val - 'A'.val).toNat = 32 := by decide
      rw [UInt32.toNat_add, hshift, Char.toNat_val]
      omega
    rw [isBlank_of_letter hfirst (by omega), isBlank_of_letter]
    · rw [Char.toNat, hlower]
      omega
    · rw [Char.toNat, hlower]
      omega
  case isFalse => rfl

private theorem isBlank_foldChar (c : Char) : isBlank (foldChar c) = isBlank c := by
  unfold foldChar
  split_ifs with hs hk
  · rw [hs]
    decide
  · rw [hk]
    decide
  · exact isBlank_toLower c

private theorem unpadded_of_map_foldChar {word : List Char} (h : Unpadded (word.map foldChar)) :
    Unpadded word := by
  rintro c hc
  rw [← isBlank_foldChar]
  refine h (foldChar c) ?_
  rw [List.head?_map, List.getLast?_map]
  exact hc.imp (Option.mem_map_of_mem _) (Option.mem_map_of_mem _)

end Text

namespace Pattern

open Text

variable {p : Pattern}

/-- What the preferred match reads. -/
theorem exists_word_of_end? {offset : Nat} {last : Option Char} {text : List Char} {d : Cursor}
    (h : p.end? ⟨offset, last, text⟩ = some d) :
    ∃ word ∈ p.language, text = word ++ d.rest ∧ d.offset = offset + byteLength word := by
  obtain ⟨read, hread, hd⟩ := leadsTo_of_mem_ends (mem_ends_of_end? h)
  obtain ⟨word, hword, hrest⟩ := exists_word_of_mem_ends (mem_ends_of_end? h)
  obtain rfl : word = read := List.append_cancel_right (hrest.symm.trans hread)
  exact ⟨word, hword, hrest, by rw [hd]; rfl⟩

/-- A match stands in the text at its bytes. -/
theorem exists_append_of_mem_matchesFrom {resume offset : Nat} {last : Option Char}
    {text : List Char} {m : Match} (hm : m ∈ p.matchesFrom resume offset last text) :
    ∃ front back, text = front ++ m.text ++ back ∧ m.start = offset + byteLength front ∧
      m.stop = m.start + byteLength m.text ∧ m.text ∈ p.language := by
  induction text generalizing resume offset last with
  | nil =>
    simp only [matchesFrom] at hm
    split at hm
    · cases hm
    · split at hm
      · cases hm
      case h_2 d hend =>
        obtain ⟨word, hword, htext, hoffset⟩ := exists_word_of_end? hend
        obtain ⟨rfl, -⟩ := List.append_eq_nil_iff.1 htext.symm
        obtain rfl := List.mem_singleton.1 hm
        exact ⟨[], [], rfl, rfl, hoffset, hword⟩
  | cons x rest ih =>
    have hlater : ∀ {resume}, m ∈ p.matchesFrom resume (offset + x.utf8Size) (some x) rest →
        ∃ front back, x :: rest = front ++ m.text ++ back ∧ m.start = offset + byteLength front ∧
          m.stop = m.start + byteLength m.text ∧ m.text ∈ p.language := by
      intro resume hm
      obtain ⟨front, back, hrest, hstart, hstop, hword⟩ := ih hm
      refine ⟨x :: front, back, by rw [hrest]; rfl, ?_, hstop, hword⟩
      rw [hstart, byteLength_cons, Nat.add_assoc]
    simp only [matchesFrom] at hm
    split at hm
    · exact hlater hm
    · split at hm
      · exact hlater hm
      case h_2 d hend =>
        rcases List.mem_cons.1 hm with rfl | hm
        · obtain ⟨word, hword, htext, hoffset⟩ := exists_word_of_end? hend
          have hshown : takeBytes (d.offset - offset) (x :: rest) = word := by
            rw [hoffset, Nat.add_sub_cancel_left, htext, takeBytes_byteLength]
          refine ⟨[], d.rest, ?_, rfl, ?_, ?_⟩
          · simp only [hshown]
            exact htext
          · simp only [hshown]
            exact hoffset
          · simp only [hshown]
            exact hword
        · exact hlater hm

theorem slice_of_mem_matchesIn {text : List Char} {m : Match} (hm : m ∈ p.matchesIn text) :
    slice text m.start m.stop = some m.text ∧ m.text ∈ p.language := by
  obtain ⟨front, back, htext, hstart, hstop, hword⟩ := exists_append_of_mem_matchesFrom hm
  rw [Nat.zero_add] at hstart
  exact ⟨slice_eq_some_iff.2 ⟨front, back, htext, hstart.symm, by rw [hstop, hstart]⟩, hword⟩

end Pattern

namespace Vocabulary

open Pattern

private theorem language_wholeWord (p : Pattern) : (wholeWord p).language = p.language := by
  have hseq : (wholeWord p).language = 1 * (p.language * 1) := rfl
  rw [hseq, one_mul, mul_one]

/-- The words of a choice have bare ends if each of them has. -/
theorem unpadded_of_mem_oneOf {read : String → Pattern} {spelling : String → List Char}
    (hread : ∀ s, Text.Unpadded (spelling s) → ∀ word ∈ (read s).language, Text.Unpadded word)
    {first : String} {others : List String}
    (hspelling : ∀ s ∈ first :: others, Text.Unpadded (spelling s)) {word : List Char}
    (h : word ∈ (oneOf (read first) (others.map read)).language) : Text.Unpadded word := by
  obtain ⟨q, hq, hword⟩ := (mem_language_oneOf _ _ _).1 h
  obtain ⟨s, hs, rfl⟩ : ∃ s ∈ first :: others, read s = q := List.mem_map.1 hq
  exact hread s (hspelling s hs) word hword

private theorem unpadded_of_mem_caseless (s : String)
    (h : Text.Unpadded (s.toList.map Text.foldChar))
    (word : List Char) (hword : word ∈ (caseless s).language) : Text.Unpadded word := by
  apply Text.unpadded_of_map_foldChar
  rw [(mem_language_caseless s word).1 hword]
  exact h

private theorem unpadded_of_mem_literal (s : String) (h : Text.Unpadded s.toList) (word : List Char)
    (hword : word ∈ (literal s).language) : Text.Unpadded word := by
  rw [(mem_language_literal s word).1 hword]
  exact h

theorem unpadded_of_mem_ambiguous {word : List Char} (h : word ∈ ambiguous.language) :
    Text.Unpadded word := by
  rw [ambiguous, language_wholeWord] at h
  exact unpadded_of_mem_oneOf unpadded_of_mem_caseless (by decide) h

theorem unpadded_of_mem_questions {word : List Char} (h : word ∈ questions.language) :
    Text.Unpadded word := by
  rcases (Language.mem_add _ _ _).1 h with hopening | hmark
  · rw [language_wholeWord] at hopening
    exact unpadded_of_mem_oneOf unpadded_of_mem_literal (by decide) hopening
  · exact unpadded_of_mem_literal "?" (by decide) word hmark

end Vocabulary

namespace Text

/-- What the excerpt around a place is cut from, and what it shows of the place. -/
theorem exists_excerpt {text : List Char} {most start stop : Nat}
    (hmost : (encoded text).length ≤ most) (hle : start ≤ stop)
    (hstart : isBoundary (encoded text) start = true)
    (hstop : isBoundary (encoded text) stop = true) (radius : Nat) :
    ∃ lo hi part inner, Surrounds most text start stop radius lo hi ∧
      slice text lo hi = some part ∧ slice text start stop = some inner ∧ inner <:+: part ∧
      excerpt? most text start stop radius = some (excerpt text start stop radius) ∧
      excerpt text start stop radius = trim part ∧
      (Unpadded inner → inner <:+: excerpt text start stop radius) := by
  obtain ⟨lo, hi, part, hsurrounds, hpart, hwindow⟩ := exists_surrounds hmost hle hstart hstop radius
  obtain ⟨inner, hinner⟩ : ∃ inner, slice text start stop = some inner :=
    ⟨_, if_pos ⟨hle, hstart, hstop⟩⟩
  have hinfix : inner <:+: part :=
    infix_of_slice_eq_some hinner hpart hsurrounds.lo_le_start hsurrounds.stop_le_hi
  have hexcerpt : excerpt text start stop radius = trim part := by
    rw [excerpt, hwindow]
  refine ⟨lo, hi, part, inner, hsurrounds, hpart, hinner, hinfix, ?_, hexcerpt, fun hends => ?_⟩
  · rw [hsurrounds.excerpt?_eq hpart, hexcerpt]
  · rw [hexcerpt]
    exact infix_trim hinfix hends

/-- The walks over the bytes end at boundaries, so the cut is defined. The second part says that
this is so for whatever the rules quote. -/
theorem excerpt_shows_its_place (text : List Char) :
    (∀ most start stop radius, (encoded text).length ≤ most → start ≤ stop →
      isBoundary (encoded text) start = true → isBoundary (encoded text) stop = true →
      ∃ lo hi part inner, Surrounds most text start stop radius lo hi ∧
        slice text lo hi = some part ∧ slice text start stop = some inner ∧ inner <:+: part ∧
        excerpt? most text start stop radius = some (excerpt text start stop radius) ∧
        excerpt text start stop radius = trim part ∧
        (Unpadded inner → inner <:+: excerpt text start stop radius)) ∧
    ∀ found, found ∈ Vocabulary.ambiguous.matchesIn text ∨
        found ∈ Vocabulary.questions.matchesIn text →
      found.start ≤ found.stop ∧ isBoundary (encoded text) found.start = true ∧
        isBoundary (encoded text) found.stop = true ∧
        slice text found.start found.stop = some found.text ∧ Unpadded found.text ∧
        found.text <:+: excerpt text found.start found.stop Rule.excerptRadius := by
  refine ⟨fun most start stop radius hmost hle hstart hstop =>
    exists_excerpt hmost hle hstart hstop radius, fun found hfound => ?_⟩
  obtain ⟨hslice, hends⟩ :
      slice text found.start found.stop = some found.text ∧ Unpadded found.text := by
    rcases hfound with hfound | hfound
    · obtain ⟨hslice, hword⟩ := Pattern.slice_of_mem_matchesIn hfound
      exact ⟨hslice, Vocabulary.unpadded_of_mem_ambiguous hword⟩
    · obtain ⟨hslice, hword⟩ := Pattern.slice_of_mem_matchesIn hfound
      exact ⟨hslice, Vocabulary.unpadded_of_mem_questions hword⟩
  obtain ⟨hle, hstart, hstop⟩ := boundaries_of_slice_eq_some hslice
  obtain ⟨_, _, _, inner, _, _, hinner, _, _, _, hshown⟩ :=
    exists_excerpt (Nat.le_refl _) hle hstart hstop Rule.excerptRadius
  obtain rfl : inner = found.text := Option.some_inj.1 (hinner.symm.trans hslice)
  exact ⟨hle, hstart, hstop, hslice, hends, hshown hends⟩

/-- A hedged word between characters of two bytes. Two bytes before it and two bytes behind it the text
cannot be cut, so the excerpt goes three bytes to either side. -/
theorem excerpt_between_wide_characters :
    let text := "äää might äää".toList
    isBoundary (encoded text) 5 = false ∧ isBoundary (encoded text) 14 = false ∧
      excerpt? 0xFFFFFFFFFFFFFFFF text 7 12 2 = some (excerpt text 7 12 2) ∧
      excerpt text 7 12 2 = "ä might ä".toList ∧
      ⟨7, 12, "might".toList⟩ ∈ Vocabulary.ambiguous.matchesIn text ∧
      "might".toList <:+: excerpt text 7 12 Rule.excerptRadius := by
  intro text
  have hmain := excerpt_shows_its_place text
  have hfound : ⟨7, 12, "might".toList⟩ ∈ Vocabulary.ambiguous.matchesIn text := by decide
  have hshown := hmain.2 _ (.inl hfound)
  have hlength : (encoded text).length = 19 := by
    rw [encoded_eq]
    decide
  have hcut : isBoundary (encoded text) 5 = false ∧ isBoundary (encoded text) 14 = false := by
    rw [encoded_eq]
    decide
  obtain ⟨_, _, _, _, _, _, _, _, hbytes, _⟩ := hmain.1 0xFFFFFFFFFFFFFFFF 7 12 2
    (by rw [hlength]; decide) (by decide) hshown.2.1 hshown.2.2.1
  exact ⟨hcut.1, hcut.2, hbytes, by decide, hfound, hshown.2.2.2.2.2⟩

end Text

end PlanAudit
