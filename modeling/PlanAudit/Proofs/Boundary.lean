import PlanAudit.Proofs.ByteOrder
import PlanAudit.Proofs.Separator

/-! The boundaries between the characters of a text, told by its bytes. A walk from byte to byte, down or
up, meets one before it leaves the text and within three bytes, and a text can be cut at two of them. -/
namespace PlanAudit.Text

def encoded (text : List Char) : List UInt8 :=
  bytes (String.ofList text)

theorem encoded_eq (text : List Char) : encoded text = text.flatMap String.utf8EncodeChar := by
  rw [encoded, bytes_eq, String.toList_ofList]

private theorem encoded_cons (c : Char) (text : List Char) :
    encoded (c :: text) = String.utf8EncodeChar c ++ encoded text := by
  rw [encoded_eq, encoded_eq, List.flatMap_cons]

theorem length_encoded (text : List Char) : (encoded text).length = byteLength text := by
  induction text with
  | nil => rw [encoded_eq, List.flatMap_nil, List.length_nil, byteLength_nil]
  | cons c text ih =>
    rw [encoded_cons, List.length_append, String.length_utf8EncodeChar, ih, byteLength_cons]

/-- A byte behind the first one of a character. -/
def continues (byte : UInt8) : Bool :=
  0x80 ≤ byte && byte < 0xC0

def isBoundary (bytes : List UInt8) (offset : Nat) : Bool :=
  match bytes[offset]? with
  | some byte => !continues byte
  | none => offset == bytes.length

section Characters

private theorem continues_ofNat {n : Nat} (h : n < 256) :
    continues (UInt8.ofNat n) = (decide (0x80 ≤ n) && decide (n < 0xC0)) := by
  simp only [continues, UInt8.le_iff_toNat_le, UInt8.lt_iff_toNat_lt, UInt8.toNat_ofNat',
    Nat.mod_eq_of_lt h]
  rfl

/-- Of a run of bytes only the first one does not hold six bits of what has begun. -/
theorem byteRun_eq_cons (mark limit further n : Nat) :
    ∃ m rest, byteRun mark limit further n = UInt8.ofNat (m % limit + mark) :: rest ∧
      ∀ byte ∈ rest, continues byte = true := by
  induction further generalizing n with
  | zero => exact ⟨n, [], rfl, List.forall_mem_nil _⟩
  | succ further ih =>
    obtain ⟨m, rest, hrun, hrest⟩ := ih (n / 64)
    refine ⟨m, rest ++ [UInt8.ofNat (n % 64 + 128)], ?_, ?_⟩
    · rw [byteRun, hrun, List.cons_append]
    · refine List.forall_mem_append.2 ⟨hrest, List.forall_mem_singleton.2 ?_⟩
      rw [continues_ofNat (by omega), Bool.and_eq_true, decide_eq_true_eq, decide_eq_true_eq]
      omega

/-- The first byte of a character is told from the others. -/
theorem utf8EncodeChar_eq_cons (c : Char) :
    ∃ first rest, String.utf8EncodeChar c = first :: rest ∧ continues first = false ∧
      ∀ byte ∈ rest, continues byte = true := by
  have hrun : ∀ mark limit further : Nat, 0 < limit → limit + mark ≤ 256 →
      limit + mark ≤ 0x80 ∨ 0xC0 ≤ mark →
      ∃ first rest, byteRun mark limit further c.toNat = first :: rest ∧ continues first = false ∧
        ∀ byte ∈ rest, continues byte = true := by
    intro mark limit further hpos hlimit hmark
    obtain ⟨m, rest, hrun, hrest⟩ := byteRun_eq_cons mark limit further c.toNat
    refine ⟨_, rest, hrun, ?_, hrest⟩
    have hlt := Nat.mod_lt m hpos
    rw [continues_ofNat (by omega), Bool.and_eq_false_iff, decide_eq_false_iff_not,
      decide_eq_false_iff_not]
    omega
  rw [utf8EncodeChar_eq]
  split_ifs
  · exact hrun 0 128 0 (by decide) (by decide) (by decide)
  · exact hrun 0xc0 32 1 (by decide) (by decide) (by decide)
  · exact hrun 0xe0 16 2 (by decide) (by decide) (by decide)
  · exact hrun 0xf0 8 3 (by decide) (by decide) (by decide)

theorem isBoundary_append_right (front back : List UInt8) (offset : Nat) :
    isBoundary (front ++ back) (front.length + offset) = isBoundary back offset := by
  rw [isBoundary, isBoundary, List.getElem?_append_right (Nat.le_add_right _ _),
    Nat.add_sub_cancel_left, List.length_append]
  cases back[offset]? with
  | some byte => rfl
  | none => simp

/-- Within a character only its first byte is at a boundary. -/
theorem isBoundary_of_lt_utf8Size {c : Char} {offset : Nat} (h : offset < c.utf8Size)
    (rest : List UInt8) :
    isBoundary (String.utf8EncodeChar c ++ rest) offset = (offset == 0) := by
  obtain ⟨first, others, hchar, hfirst, hothers⟩ := utf8EncodeChar_eq_cons c
  have hlength : (first :: others).length = c.utf8Size := by
    rw [← hchar, String.length_utf8EncodeChar]
  rw [isBoundary, hchar]
  cases offset with
  | zero => simp [hfirst]
  | succ offset =>
    rw [List.length_cons] at hlength
    have hlt : offset < others.length := by omega
    rw [List.cons_append, List.getElem?_cons_succ, List.getElem?_append_left hlt,
      List.getElem?_eq_getElem hlt]
    simp [hothers _ (List.getElem_mem hlt)]

/-- The bytes show where a text can be parted. -/
theorem isBoundary_encoded_iff {text : List Char} {offset : Nat} :
    isBoundary (encoded text) offset = true ↔
      ∃ front back, text = front ++ back ∧ byteLength front = offset := by
  induction text generalizing offset with
  | nil =>
    have hnil : isBoundary (encoded []) offset = (offset == 0) := by
      rw [isBoundary, encoded_eq]
      rfl
    rw [hnil, beq_iff_eq]
    constructor
    · rintro rfl
      exact ⟨[], [], rfl, rfl⟩
    · rintro ⟨front, back, hsplit, rfl⟩
      rw [(List.append_eq_nil_iff.1 hsplit.symm).1, byteLength_nil]
  | cons c text ih =>
    rw [encoded_cons]
    by_cases hwithin : offset < c.utf8Size
    · rw [isBoundary_of_lt_utf8Size hwithin, beq_iff_eq]
      constructor
      · rintro rfl
        exact ⟨[], c :: text, rfl, rfl⟩
      · rintro ⟨front, back, hsplit, rfl⟩
        cases front with
        | nil => rfl
        | cons x front =>
          obtain ⟨rfl, -⟩ := List.cons_eq_cons.1 hsplit
          rw [byteLength_cons] at hwithin
          omega
    · obtain ⟨behind, rfl⟩ := Nat.exists_eq_add_of_le (Nat.not_lt.1 hwithin)
      rw [← String.length_utf8EncodeChar c, isBoundary_append_right, ih,
        String.length_utf8EncodeChar]
      constructor
      · rintro ⟨front, back, rfl, rfl⟩
        exact ⟨c :: front, back, rfl, byteLength_cons c front⟩
      · rintro ⟨front, back, hsplit, hlength⟩
        cases front with
        | nil =>
          have hpos := c.utf8Size_pos
          rw [byteLength_nil] at hlength
          omega
        | cons x front =>
          obtain ⟨rfl, hrest⟩ := List.cons_eq_cons.1 hsplit
          rw [byteLength_cons] at hlength
          exact ⟨front, back, hrest, by omega⟩

theorem isBoundary_byteLength (front back : List Char) :
    isBoundary (encoded (front ++ back)) (byteLength front) = true :=
  isBoundary_encoded_iff.2 ⟨front, back, rfl, rfl⟩

theorem isBoundary_zero (text : List Char) : isBoundary (encoded text) 0 = true :=
  isBoundary_byteLength [] text

/-- The character that a byte belongs to. -/
theorem exists_char_at {text : List Char} {offset : Nat} (h : offset < byteLength text) :
    ∃ front c back, text = front ++ c :: back ∧ byteLength front ≤ offset ∧
      offset < byteLength front + c.utf8Size := by
  induction text generalizing offset with
  | nil =>
    rw [byteLength_nil] at h
    omega
  | cons c text ih =>
    rw [byteLength_cons] at h
    by_cases hwithin : offset < c.utf8Size
    · refine ⟨[], c, text, rfl, Nat.zero_le _, ?_⟩
      rw [byteLength_nil, Nat.zero_add]
      exact hwithin
    · obtain ⟨front, x, back, rfl, hle, hlt⟩ := @ih (offset - c.utf8Size) (by omega)
      refine ⟨c :: front, x, back, rfl, ?_, ?_⟩
      · rw [byteLength_cons]
        omega
      · rw [byteLength_cons]
        omega

end Characters

section Walks

variable {bytes : List UInt8} {text : List Char} {offset lo hi : Nat}

/-- Down from a byte to the first boundary on the way. There is no result if the walk would have to go
below the first byte. -/
def boundaryBelow (bytes : List UInt8) : (offset : Nat) → Option Nat
  | 0 => if isBoundary bytes 0 then some 0 else none
  | offset + 1 =>
    if isBoundary bytes (offset + 1) then some (offset + 1) else boundaryBelow bytes offset

/-- Up from a byte to the first boundary on the way. There is no result if the walk would have to go
beyond the end of the text. -/
def boundaryAbove (bytes : List UInt8) (offset : Nat) : Option Nat :=
  if isBoundary bytes offset then some offset
  else if offset < bytes.length then boundaryAbove bytes (offset + 1)
  else none
termination_by bytes.length - offset

structure LastBoundary (bytes : List UInt8) (offset lo : Nat) : Prop where
  le : lo ≤ offset
  boundary : isBoundary bytes lo = true
  last : ∀ k, isBoundary bytes k = true → k ≤ offset → k ≤ lo

structure FirstBoundary (bytes : List UInt8) (offset hi : Nat) : Prop where
  le : offset ≤ hi
  boundary : isBoundary bytes hi = true
  first : ∀ k, isBoundary bytes k = true → offset ≤ k → hi ≤ k

theorem exists_boundaryBelow (hzero : isBoundary bytes 0 = true) (offset : Nat) :
    ∃ lo, boundaryBelow bytes offset = some lo ∧ LastBoundary bytes offset lo := by
  induction offset with
  | zero => exact ⟨0, by rw [boundaryBelow, if_pos hzero], Nat.le_refl 0, hzero, fun _ _ hk => hk⟩
  | succ offset ih =>
    by_cases hhere : isBoundary bytes (offset + 1) = true
    · exact ⟨offset + 1, by rw [boundaryBelow, if_pos hhere], Nat.le_refl _, hhere, fun _ _ hk => hk⟩
    · obtain ⟨lo, hwalk, hlo⟩ := ih
      refine ⟨lo, by rw [boundaryBelow, if_neg hhere, hwalk], by have := hlo.le; omega,
        hlo.boundary, fun k hk hle => hlo.last k hk ?_⟩
      have hne : k ≠ offset + 1 := fun heq => hhere (heq ▸ hk)
      omega

theorem le_length_of_isBoundary (h : isBoundary bytes offset = true) : offset ≤ bytes.length := by
  rw [isBoundary] at h
  cases hbyte : bytes[offset]? with
  | some byte => exact Nat.le_of_lt (List.getElem?_eq_some_iff.1 hbyte).1
  | none =>
    rw [hbyte] at h
    exact Nat.le_of_eq (beq_iff_eq.1 h)

theorem isBoundary_length (bytes : List UInt8) : isBoundary bytes bytes.length = true := by
  rw [isBoundary, List.getElem?_eq_none (Nat.le_refl _)]
  exact beq_self_eq_true _

theorem exists_boundaryAbove (h : offset ≤ bytes.length) :
    ∃ hi, boundaryAbove bytes offset = some hi ∧ FirstBoundary bytes offset hi := by
  fun_induction boundaryAbove bytes offset with
  | case1 offset hhere =>
    exact ⟨offset, rfl, Nat.le_refl _, hhere, fun _ _ hk => hk⟩
  | case2 offset hhere hlt ih =>
    obtain ⟨hi, hwalk, hhi⟩ := ih hlt
    refine ⟨hi, hwalk, by have := hhi.le; omega, hhi.boundary, fun k hk hle => hhi.first k hk ?_⟩
    have hne : k ≠ offset := fun heq => hhere (heq ▸ hk)
    omega
  | case3 offset hhere hlt =>
    obtain rfl : offset = bytes.length := by omega
    exact absurd (isBoundary_length bytes) hhere

theorem isBoundary_end (text : List Char) : isBoundary (encoded text) (byteLength text) = true := by
  rw [← length_encoded]
  exact isBoundary_length _

/-- A character has at most four bytes, so a boundary is near. -/
theorem LastBoundary.near (h : LastBoundary (encoded text) offset lo)
    (hoffset : offset ≤ byteLength text) : offset ≤ lo + 3 := by
  rcases Nat.lt_or_eq_of_le hoffset with hlt | rfl
  · obtain ⟨front, c, back, rfl, hfront, hc⟩ := exists_char_at hlt
    have hlast := h.last _ (isBoundary_byteLength front (c :: back)) hfront
    have hsize := c.utf8Size_le_four
    omega
  · exact Nat.le_add_right_of_le (h.last _ (isBoundary_end text) (Nat.le_refl _))

theorem FirstBoundary.near (h : FirstBoundary (encoded text) offset hi)
    (hoffset : offset ≤ byteLength text) : hi ≤ offset + 3 := by
  rcases Nat.lt_or_eq_of_le hoffset with hlt | rfl
  · obtain ⟨front, c, back, rfl, hfront, hc⟩ := exists_char_at hlt
    have hbehind := isBoundary_byteLength (front ++ [c]) back
    rw [byteLength_append, byteLength_cons, byteLength_nil, Nat.add_zero, List.append_assoc,
      List.singleton_append] at hbehind
    have hsize := c.utf8Size_le_four
    -- either the character begins at the byte, or it has at most three more bytes
    rcases Nat.lt_or_eq_of_le hfront with hlt | heq
    · have hfirst := h.first _ hbehind (by omega)
      omega
    · have hfirst := h.first _ (isBoundary_byteLength front (c :: back)) (Nat.le_of_eq heq.symm)
      omega
  · exact Nat.le_add_right_of_le (h.first _ (isBoundary_end text) (Nat.le_refl _))

end Walks

section Slices

variable {text part inner : List Char} {lo hi start stop : Nat}

/-- What is left of a text behind the first characters that `bytes` bytes hold. -/
def dropBytes : (bytes : Nat) → List Char → List Char
  | _, [] => []
  | bytes, c :: cs => if c.utf8Size ≤ bytes then dropBytes (bytes - c.utf8Size) cs else c :: cs

theorem takeBytes_byteLength (front back : List Char) :
    takeBytes (byteLength front) (front ++ back) = front := by
  induction front with
  | nil =>
    cases back with
    | nil => rfl
    | cons c back =>
      rw [List.nil_append, byteLength_nil, takeBytes, if_neg (Nat.not_le.2 c.utf8Size_pos)]
  | cons c front ih =>
    rw [List.cons_append, byteLength_cons, takeBytes, if_pos (Nat.le_add_right _ _),
      Nat.add_sub_cancel_left, ih]

theorem dropBytes_byteLength (front back : List Char) :
    dropBytes (byteLength front) (front ++ back) = back := by
  induction front with
  | nil =>
    cases back with
    | nil => rfl
    | cons c back =>
      rw [List.nil_append, byteLength_nil, dropBytes, if_neg (Nat.not_le.2 c.utf8Size_pos)]
  | cons c front ih =>
    rw [List.cons_append, byteLength_cons, dropBytes, if_pos (Nat.le_add_right _ _),
      Nat.add_sub_cancel_left, ih]

/-- The characters from one byte to another. There is no result unless both are at boundaries and the
first one is not behind the second. -/
def slice (text : List Char) (lo hi : Nat) : Option (List Char) :=
  if lo ≤ hi ∧ isBoundary (encoded text) lo = true ∧ isBoundary (encoded text) hi = true then
    some (takeBytes (hi - lo) (dropBytes lo text))
  else none

/-- Of two beginnings of a text the one with fewer bytes is a beginning of the other. -/
theorem prefix_of_byteLength_le {front other : List Char} (hfront : front <+: text)
    (hother : other <+: text) (h : byteLength front ≤ byteLength other) : front <+: other := by
  rcases List.prefix_or_prefix_of_prefix hfront hother with hprefix | ⟨rest, rfl⟩
  · exact hprefix
  · rw [byteLength_append] at h
    cases rest with
    | nil => simp
    | cons c rest =>
      have hpos := c.utf8Size_pos
      rw [byteLength_cons] at h
      omega

theorem slice_eq_of_append (front part back : List Char) :
    slice (front ++ part ++ back) (byteLength front) (byteLength front + byteLength part) =
      some part := by
  have hlo := isBoundary_byteLength front (part ++ back)
  have hhi := isBoundary_byteLength (front ++ part) back
  rw [← List.append_assoc] at hlo
  rw [byteLength_append] at hhi
  rw [slice, if_pos ⟨Nat.le_add_right _ _, hlo, hhi⟩, Nat.add_sub_cancel_left, List.append_assoc,
    dropBytes_byteLength, takeBytes_byteLength]

/-- Between two boundaries stands a part of the text. -/
theorem exists_append_of_isBoundary (hle : lo ≤ hi) (hlo : isBoundary (encoded text) lo = true)
    (hhi : isBoundary (encoded text) hi = true) :
    ∃ front part back, text = front ++ part ++ back ∧ byteLength front = lo ∧
      byteLength front + byteLength part = hi := by
  obtain ⟨front, rest, htext, rfl⟩ := isBoundary_encoded_iff.1 hlo
  obtain ⟨longer, back, htext', rfl⟩ := isBoundary_encoded_iff.1 hhi
  obtain ⟨part, rfl⟩ := prefix_of_byteLength_le ⟨rest, htext.symm⟩ ⟨back, htext'.symm⟩ hle
  exact ⟨front, part, back, htext', rfl, (byteLength_append front part).symm⟩

theorem boundaries_of_slice_eq_some (h : slice text lo hi = some part) :
    lo ≤ hi ∧ isBoundary (encoded text) lo = true ∧ isBoundary (encoded text) hi = true := by
  rw [slice] at h
  split_ifs at h with hcut
  exact hcut

theorem slice_eq_some_iff :
    slice text lo hi = some part ↔ ∃ front back, text = front ++ part ++ back ∧
      byteLength front = lo ∧ byteLength front + byteLength part = hi := by
  constructor
  · intro h
    obtain ⟨hle, hlo, hhi⟩ := boundaries_of_slice_eq_some h
    obtain ⟨front, other, back, rfl, rfl, rfl⟩ := exists_append_of_isBoundary hle hlo hhi
    obtain rfl : other = part := Option.some_inj.1 ((slice_eq_of_append front other back).symm.trans h)
    exact ⟨front, back, rfl, rfl, rfl⟩
  · rintro ⟨front, back, rfl, rfl, rfl⟩
    exact slice_eq_of_append front part back

/-- A slice within a wider one is a part of it. -/
theorem infix_of_slice_eq_some (hinner : slice text start stop = some inner)
    (hpart : slice text lo hi = some part) (hlo : lo ≤ start) (hhi : stop ≤ hi) :
    inner <:+: part := by
  obtain ⟨front, back, htext, rfl, rfl⟩ := slice_eq_some_iff.1 hinner
  obtain ⟨before, after, htext', rfl, rfl⟩ := slice_eq_some_iff.1 hpart
  have hbefore : before <+: text := ⟨part ++ after, by rw [htext', List.append_assoc]⟩
  have hfront : front <+: text := ⟨inner ++ back, by rw [htext, List.append_assoc]⟩
  obtain ⟨left, rfl⟩ := prefix_of_byteLength_le hbefore hfront hlo
  rw [← byteLength_append, ← byteLength_append] at hhi
  obtain ⟨right, hright⟩ := prefix_of_byteLength_le ⟨back, htext.symm⟩ ⟨after, htext'.symm⟩ hhi
  refine ⟨left, right, (List.append_right_inj before).1 ?_⟩
  rw [← hright, List.append_assoc, List.append_assoc, List.append_assoc]

end Slices

end PlanAudit.Text
