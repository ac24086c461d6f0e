import PlanAudit.Proofs.Separator

/-! What is left of a text when every match of a pattern in it gives way to one character. -/
namespace PlanAudit

namespace Cursor

theorem past_append (c : Cursor) (first second rest : List Char) :
    c.past (first ++ second) rest = (c.past first (second ++ rest)).past second rest := by
  simp only [past, Text.byteLength_append, List.getLast?_append, Option.or_assoc, Nat.add_assoc]

/-- One comes from the first place to the second by reading on. -/
def LeadsTo (c d : Cursor) : Prop :=
  ∃ read, c.rest = read ++ d.rest ∧ d = c.past read d.rest

theorem LeadsTo.refl (c : Cursor) : c.LeadsTo c :=
  ⟨[], rfl, (past_nil c).symm⟩

theorem LeadsTo.trans {c d e : Cursor} (hcd : c.LeadsTo d) (hde : d.LeadsTo e) : c.LeadsTo e := by
  obtain ⟨read, hread, hd⟩ := hcd
  obtain ⟨more, hmore, he⟩ := hde
  refine ⟨read ++ more, by rw [hread, hmore, List.append_assoc], ?_⟩
  rw [past_append, ← hmore, ← hd]
  exact he

theorem LeadsTo.offset_le {c d : Cursor} (h : c.LeadsTo d) : c.offset ≤ d.offset := by
  obtain ⟨read, _, hd⟩ := h
  rw [hd]
  exact Nat.le_add_right _ _

end Cursor

namespace Pattern

theorem leadsTo_of_mem_rounds {step : Cursor → List Cursor}
    (hstep : ∀ {c d}, d ∈ step c → c.LeadsTo d) {room : List Char} {c d : Cursor}
    (hd : d ∈ rounds step room c) : c.LeadsTo d := by
  induction room generalizing c with
  | nil => exact List.mem_singleton.1 hd ▸ .refl c
  | cons x room ih =>
    rcases List.mem_append.1 hd with hmore | hstop
    · obtain ⟨e, he, hde⟩ := List.mem_flatMap.1 hmore
      exact (hstep (List.mem_of_mem_filter he)).trans (ih hde)
    · exact List.mem_singleton.1 hstop ▸ .refl c

/-- A match ends behind the characters that it reads. -/
theorem leadsTo_of_mem_ends {p : Pattern} {c d : Cursor} (hd : d ∈ p.ends c) : c.LeadsTo d := by
  have hstay : ∀ {c d : Cursor} {test : Bool}, d ∈ (if test then [c] else []) → c.LeadsTo d := by
    intro c d test hd
    split at hd
    · exact List.mem_singleton.1 hd ▸ .refl c
    · cases hd
  induction p generalizing c d with
  | empty => exact List.mem_singleton.1 hd ▸ .refl c
  | one set =>
    cases hrest : c.rest with
    | nil => simp [ends, hrest] at hd
    | cons x rest =>
      simp only [ends, hrest] at hd
      split at hd
      · obtain rfl := List.mem_singleton.1 hd
        exact ⟨[x], hrest, by simp [Cursor.past, Text.byteLength_cons]⟩
      · cases hd
  | seq p q hp hq =>
    obtain ⟨e, he, hde⟩ := List.mem_flatMap.1 hd
    exact (hp he).trans (hq hde)
  | alt p q hp hq =>
    rcases List.mem_append.1 hd with hd | hd
    · exact hp hd
    · exact hq hd
  | many p hp => exact leadsTo_of_mem_rounds hp hd
  | wordEdge => exact hstay hd
  | textStart => exact hstay hd
  | textEnd => exact hstay hd

def reads : Pattern → Bool
  | one _ => true
  | seq p q => p.reads || q.reads
  | alt p q => p.reads && q.reads
  | _ => false

theorem offset_lt_of_mem_ends {p : Pattern} (hp : p.reads = true) {c d : Cursor}
    (hd : d ∈ p.ends c) : c.offset < d.offset := by
  induction p generalizing c d with
  | one set =>
    cases hrest : c.rest with
    | nil => simp [ends, hrest] at hd
    | cons x rest =>
      simp only [ends, hrest] at hd
      split at hd
      · obtain rfl := List.mem_singleton.1 hd
        exact Nat.lt_add_of_pos_right x.utf8Size_pos
      · cases hd
  | seq p q ihp ihq =>
    obtain ⟨e, he, hde⟩ := List.mem_flatMap.1 hd
    rcases Bool.or_eq_true_iff.1 hp with hreads | hreads
    · exact Nat.lt_of_lt_of_le (ihp hreads he) (leadsTo_of_mem_ends hde).offset_le
    · exact Nat.lt_of_le_of_lt (leadsTo_of_mem_ends he).offset_le (ihq hreads hde)
  | alt p q ihp ihq =>
    obtain ⟨hpp, hpq⟩ := Bool.and_eq_true_iff.1 hp
    rcases List.mem_append.1 hd with hd | hd
    · exact ihp hpp hd
    · exact ihq hpq hd
  | _ => simp [reads] at hp

theorem mem_ends_of_end? {p : Pattern} {c d : Cursor} (h : p.end? c = some d) : d ∈ p.ends c := by
  rw [end?_eq_head?] at h
  exact List.mem_of_head? h

/-- The preferred match reads a text that is not empty, and the cursor behind it is at its end. -/
theorem exists_read_of_end? {p : Pattern} (hp : p.reads = true) {c d : Cursor}
    (h : p.end? c = some d) :
    ∃ read, read ≠ [] ∧ c.rest = read ++ d.rest ∧ d = c.past read d.rest := by
  have hmem := mem_ends_of_end? h
  obtain ⟨read, hread, hd⟩ := leadsTo_of_mem_ends hmem
  refine ⟨read, ?_, hread, hd⟩
  rintro rfl
  have hlt := offset_lt_of_mem_ends hp hmem
  rw [hd] at hlt
  exact absurd hlt (Nat.lt_irrefl _)

theorem end?_eq_none_of_rest_nil {p : Pattern} (hp : p.reads = true) (offset : Nat)
    (last : Option Char) : p.end? ⟨offset, last, []⟩ = none := by
  rw [Option.eq_none_iff_forall_not_mem]
  intro d hd
  obtain ⟨read, hne, hread, _⟩ := exists_read_of_end? hp hd
  exact hne (List.append_eq_nil_iff.1 hread.symm).1

/-- From a place on, a text becomes another one: a character with which no match starts is kept, and
where a match starts it gives way to the filler. -/
inductive Replaced (p : Pattern) (filler : Char) : Cursor → List Char → Prop where
  | done {offset : Nat} {last : Option Char} : Replaced p filler ⟨offset, last, []⟩ []
  | keep {offset : Nat} {last : Option Char} {x : Char} {rest out : List Char} :
    p.end? ⟨offset, last, x :: rest⟩ = none →
    Replaced p filler ⟨offset + x.utf8Size, some x, rest⟩ out →
    Replaced p filler ⟨offset, last, x :: rest⟩ (x :: out)
  | swap {c d : Cursor} {out : List Char} :
    p.end? c = some d → Replaced p filler d out → Replaced p filler c (filler :: out)

theorem Replaced.unique {p : Pattern} (hp : p.reads = true) {filler : Char} {c : Cursor}
    {out other : List Char} (h : Replaced p filler c out) (h' : Replaced p filler c other) :
    out = other := by
  induction h generalizing other with
  | done =>
    cases h' with
    | done => rfl
    | swap hend _ => simp [end?_eq_none_of_rest_nil hp] at hend
  | keep hnone _ ih =>
    cases h' with
    | keep _ hrest => rw [ih hrest]
    | swap hend _ => simp [hnone] at hend
  | swap hend _ ih =>
    cases h' with
    | done => simp [end?_eq_none_of_rest_nil hp] at hend
    | keep hnone _ => simp [hnone] at hend
    | swap hend' hrest =>
      obtain rfl := Option.some.inj (hend.symm.trans hend')
      rw [ih hrest]

end Pattern

section Scan

variable {p : Pattern}

namespace Pattern

/-- A scan that may already start does not ask where it may start. -/
theorem matchesFrom_of_le {resume resume' offset : Nat} (h : resume ≤ offset)
    (h' : resume' ≤ offset) (last : Option Char) (text : List Char) :
    p.matchesFrom resume offset last text = p.matchesFrom resume' offset last text := by
  induction text generalizing offset last with
  | nil => simp [matchesFrom, Nat.not_lt.2 h, Nat.not_lt.2 h']
  | cons x rest ih =>
    have hnext := @ih (offset + x.utf8Size) (Nat.le_add_right_of_le h) (Nat.le_add_right_of_le h')
      (some x)
    simp only [matchesFrom, Nat.not_lt.2 h, Nat.not_lt.2 h', if_false, hnext]

/-- Until the scan may start again it only moves on. -/
theorem matchesFrom_append (offset : Nat) (last : Option Char) (read rest : List Char) :
    p.matchesFrom (offset + Text.byteLength read) offset last (read ++ rest) =
      p.matchesFrom (offset + Text.byteLength read) (offset + Text.byteLength read)
        (read.getLast?.or last) rest := by
  induction read generalizing offset last with
  | nil => simp
  | cons x read ih =>
    have hpos := x.utf8Size_pos
    have hlast : (x :: read).getLast?.or last = read.getLast?.or (some x) := by
      rw [List.getLast?_cons]
      cases read.getLast? <;> rfl
    rw [List.cons_append, matchesFrom, if_pos (by rw [Text.byteLength_cons]; omega),
      Text.byteLength_cons, ← Nat.add_assoc, ih, hlast]

theorem le_start_of_mem_matchesFrom {resume offset : Nat} {last : Option Char} {text : List Char}
    {m : Match} (hm : m ∈ p.matchesFrom resume offset last text) : offset ≤ m.start := by
  induction text generalizing resume offset last with
  | nil =>
    simp only [matchesFrom] at hm
    split at hm
    · cases hm
    · split at hm
      · cases hm
      · exact List.mem_singleton.1 hm ▸ Nat.le_refl _
  | cons x rest ih =>
    have hlater : ∀ {resume}, m ∈ p.matchesFrom resume (offset + x.utf8Size) (some x) rest →
        offset ≤ m.start := fun hm => Nat.le_trans (Nat.le_add_right _ _) (ih hm)
    simp only [matchesFrom] at hm
    split at hm
    · exact hlater hm
    · split at hm
      · exact hlater hm
      · rcases List.mem_cons.1 hm with rfl | hm
        · exact Nat.le_refl _
        · exact hlater hm

end Pattern

namespace Match

private theorem replaceAll_cons_of_lt {filler : Char} {found : List Match} {offset : Nat}
    (h : ∀ m ∈ found, offset < m.start) (x : Char) (rest : List Char) :
    replaceAll filler found offset (x :: rest) =
      x :: replaceAll filler found (offset + x.utf8Size) rest := by
  cases found with
  | nil => cases rest <;> rfl
  | cons m found => rw [replaceAll, if_pos (h m List.mem_cons_self)]

/-- A match that has begun is left out up to its end, where the filler takes its place. -/
theorem replaceAll_append {filler : Char} {m : Match} {found : List Match} {offset : Nat}
    {read : List Char} (hstart : m.start ≤ offset) (hread : read ≠ [])
    (hstop : m.stop = offset + Text.byteLength read) (rest : List Char) :
    replaceAll filler (m :: found) offset (read ++ rest) =
      filler :: replaceAll filler found m.stop rest := by
  induction read generalizing offset with
  | nil => exact absurd rfl hread
  | cons x read ih =>
    rw [Text.byteLength_cons] at hstop
    rw [List.cons_append, replaceAll, if_neg (Nat.not_lt.2 hstart)]
    cases read with
    | nil =>
      rw [Text.byteLength_nil, Nat.add_zero] at hstop
      rw [if_neg (by omega), ← hstop, List.nil_append]
    | cons y read =>
      have hpos := y.utf8Size_pos
      rw [if_pos (by rw [hstop, Text.byteLength_cons]; omega)]
      exact ih (by omega) (by simp) (by omega)

end Match

namespace Pattern

/-- The scan replaces the leftmost match, then the leftmost one behind it, and so on. -/
theorem replaced_replaceAll (hp : p.reads = true) (filler : Char) (offset : Nat)
    (last : Option Char) (text : List Char) :
    Replaced p filler ⟨offset, last, text⟩
      (Match.replaceAll filler (p.matchesFrom offset offset last text) offset text) := by
  induction hlength : text.length using Nat.strongRecOn generalizing offset last text with
  | ind n ih =>
  cases text with
  | nil => exact .done
  | cons x rest =>
    have hpos := x.utf8Size_pos
    cases hend : p.end? ⟨offset, last, x :: rest⟩ with
    | none =>
      have hscan : p.matchesFrom offset offset last (x :: rest) =
          p.matchesFrom (offset + x.utf8Size) (offset + x.utf8Size) (some x) rest := by
        rw [matchesFrom, if_neg (Nat.lt_irrefl _), hend]
        exact matchesFrom_of_le (Nat.le_add_right _ _) (Nat.le_refl _) _ _
      rw [hscan, Match.replaceAll_cons_of_lt fun m hm => Nat.lt_of_lt_of_le (by omega)
        (le_start_of_mem_matchesFrom hm)]
      exact .keep hend (ih rest.length (by simp [← hlength]) _ _ _ rfl)
    | some d =>
      obtain ⟨read, hne, hread, hd⟩ := exists_read_of_end? hp hend
      have hoffset : d.offset = offset + Text.byteLength read := by rw [hd]; rfl
      have hbefore : d.before = read.getLast?.or last := by rw [hd]; rfl
      have hread : x :: rest = read ++ d.rest := hread
      -- The scan looks at the characters of the match again, but may not start among them.
      have hscan : p.matchesFrom offset offset last (x :: rest) =
          ⟨offset, d.offset, Text.takeBytes (d.offset - offset) (x :: rest)⟩ ::
            p.matchesFrom d.offset d.offset d.before d.rest := by
        have hskip := matchesFrom_append (p := p) offset last read d.rest
        have hlt : offset < d.offset := offset_lt_of_mem_ends hp (mem_ends_of_end? hend)
        rw [← hread, ← hoffset, ← hbefore, matchesFrom, if_pos hlt] at hskip
        rw [matchesFrom, if_neg (Nat.lt_irrefl _), hend]
        simp only [hskip]
      rw [hscan, hread, Match.replaceAll_append (Nat.le_refl _) hne hoffset]
      refine .swap (hread ▸ hend) (ih d.rest.length ?_ d.offset d.before d.rest rfl)
      have hlen := congrArg List.length hread
      have hread_pos := List.length_pos_of_ne_nil hne
      rw [List.length_append] at hlen
      omega

theorem replaced_replaceIn (hp : p.reads = true) (filler : Char) (text : List Char) :
    Replaced p filler (.start text) (p.replaceIn filler text) :=
  replaced_replaceAll hp filler 0 none text

section PartedBy

variable {sep : Char} (hsep : p.partedBy sep = true) {shift : Nat} {tail : List Char}
  (htail : ∀ x ∈ tail.head?, x = sep) {c d : Cursor} (hwithin : c.Within shift tail d)

include hsep htail hwithin

theorem end?_eq_none_within (h : p.end? c = none) : p.end? d = none := by
  rw [end?_eq_none_iff] at h ⊢
  exact (ends_eq_nil_iff_within hsep htail hwithin).2 h

theorem end?_eq_some_within {e : Cursor} (h : p.end? c = some e) :
    ∃ e', p.end? d = some e' ∧ e.Within shift tail e' := by
  obtain ⟨others, hc⟩ := List.head?_eq_some_iff.1 ((end?_eq_head? p c).symm.trans h)
  have hends := forall₂_ends_within hsep htail hwithin
  rw [hc, List.forall₂_cons_left_iff] at hends
  obtain ⟨e', others', he, _, hd⟩ := hends
  exact ⟨e', by rw [end?_eq_head?, hd]; rfl, he⟩

/-- In a part of a text the matches are replaced as if it stood alone. -/
theorem Replaced.append {filler : Char} {after : List Char}
    (hafter : ∀ offset last, Replaced p filler ⟨offset, last, tail⟩ after) {out : List Char}
    (h : Replaced p filler c out) : Replaced p filler d (out ++ after) := by
  induction h generalizing d with
  | done =>
    obtain ⟨offset, last, rest⟩ := d
    obtain rfl : rest = tail := hwithin.rest
    exact hafter offset last
  | @keep offset last x rest out hnone _ ih =>
    have hnone' := end?_eq_none_within hsep htail hwithin hnone
    obtain ⟨offset', last', rest'⟩ := d
    obtain ⟨rfl, _, rfl⟩ := hwithin
    refine .keep hnone' (ih ⟨?_, rfl, rfl⟩)
    exact Nat.add_right_comm _ _ _
  | swap hend _ ih =>
    obtain ⟨e', hend', he⟩ := end?_eq_some_within hsep htail hwithin hend
    exact .swap hend' (ih he)

end PartedBy

/-- Replacing goes on anew behind a separator. -/
theorem replaceIn_append_cons {sep : Char} (hsep : p.partedBy sep = true) (hp : p.reads = true)
    (filler : Char) (front back : List Char) :
    p.replaceIn filler (front ++ sep :: back) =
      p.replaceIn filler front ++ sep :: p.replaceIn filler back := by
  have hword := isWordChar_of_partedBy hsep
  have hback : ∀ offset, Replaced p filler ⟨offset, some sep, back⟩ (p.replaceIn filler back) := by
    intro offset
    have hwithin : (Cursor.start back).Within offset [] ⟨offset, some sep, back⟩ :=
      ⟨(Nat.zero_add offset).symm, by simp [Cursor.start, hword], (List.append_nil back).symm⟩
    simpa using (replaced_replaceIn hp filler back).append hsep (by simp) hwithin
      fun _ _ => .done
  have hafter : ∀ offset last,
      Replaced p filler ⟨offset, last, sep :: back⟩ (sep :: p.replaceIn filler back) := by
    intro offset last
    have hwithin : (Cursor.mk offset last []).Within 0 (sep :: back) ⟨offset, last, sep :: back⟩ :=
      ⟨rfl, rfl, rfl⟩
    exact .keep (end?_eq_none_within hsep (by simp) hwithin (end?_eq_none_of_rest_nil hp _ _))
      (hback _)
  have hwithin : (Cursor.start front).Within 0 (sep :: back) (.start (front ++ sep :: back)) :=
    ⟨rfl, rfl, rfl⟩
  exact (replaced_replaceIn hp filler _).unique hp
    ((replaced_replaceIn hp filler front).append hsep (by simp) hwithin hafter)

end Pattern

end Scan

end PlanAudit
