import PlanAudit.Proofs.Replacement

/-! The matches on both sides of a separator are counted apart. -/
namespace PlanAudit.Pattern

variable {p : Pattern} (hp : p.reads = true) {sep : Char} (hsep : p.partedBy sep = true)

include hp in
theorem matchesFrom_nil (resume offset : Nat) (last : Option Char) :
    p.matchesFrom resume offset last [] = [] := by
  rw [matchesFrom, end?_eq_none_of_rest_nil hp]
  split <;> rfl

private theorem offset_le_of_end? {offset : Nat} {last : Option Char} {text : List Char}
    {d : Cursor}
    (h : p.end? ⟨offset, last, text⟩ = some d) : d.offset ≤ offset + Text.byteLength text := by
  obtain ⟨read, hread, hd⟩ := leadsTo_of_mem_ends (mem_ends_of_end? h)
  have hread : text = read ++ d.rest := hread
  rw [hd, hread, Text.byteLength_append]
  simp only [Cursor.past]
  omega

include hp hsep

/-- In a part of a text there are as many matches as if it stood alone. They end in the part, so the
scan of what follows is not held up by them. -/
theorem length_matchesFrom_append {tail : List Char} (htail : ∀ x ∈ tail.head?, x = sep) {more : Nat}
    (hafter : ∀ resume offset last, resume ≤ offset →
      (p.matchesFrom resume offset last tail).length = more)
    {resume offset : Nat} {last last' : Option Char} {text : List Char} (shift : Nat)
    (hlast : last'.any Text.isWordChar = last.any Text.isWordChar)
    (hresume : resume ≤ offset + Text.byteLength text) :
    (p.matchesFrom (resume + shift) (offset + shift) last' (text ++ tail)).length =
      (p.matchesFrom resume offset last text).length + more := by
  induction text generalizing resume offset last last' with
  | nil =>
    rw [Text.byteLength_nil] at hresume
    rw [matchesFrom_nil hp, List.nil_append, hafter _ _ _ (by omega), List.length_nil, Nat.zero_add]
  | cons x rest ih =>
    rw [Text.byteLength_cons] at hresume
    have hnext : offset + shift + x.utf8Size = offset + x.utf8Size + shift := by omega
    simp only [List.cons_append, matchesFrom, hnext, Nat.add_lt_add_iff_right]
    split
    case isTrue => exact ih rfl (by omega)
    case isFalse hstart =>
      have hwithin : (Cursor.mk offset last (x :: rest)).Within shift tail
          ⟨offset + shift, last', x :: (rest ++ tail)⟩ := ⟨rfl, hlast, rfl⟩
      cases hend : p.end? ⟨offset, last, x :: rest⟩ with
      | none =>
        rw [end?_eq_none_within hsep htail hwithin hend]
        exact ih rfl (by omega)
      | some d =>
        obtain ⟨d', hend', hd⟩ := end?_eq_some_within hsep htail hwithin hend
        have hstop := offset_le_of_end? hend
        rw [Text.byteLength_cons] at hstop
        have hrest := @ih d.offset (offset + x.utf8Size) (some x) (some x) rfl (by omega)
        simp only [hend', List.length_cons, hd.offset, hrest]
        omega

theorem count_append_cons (front back : List Char) :
    p.count (front ++ sep :: back) = p.count front + p.count back := by
  have hword := isWordChar_of_partedBy hsep
  have hback : ∀ resume offset, resume ≤ offset →
      (p.matchesFrom resume offset (some sep) back).length = p.count back := by
    intro resume offset hresume
    have hscan : (p.matchesFrom (0 + offset) (0 + offset) (some sep) (back ++ [])).length =
        p.count back + 0 :=
      length_matchesFrom_append hp hsep (by simp) (fun _ _ _ _ => by rw [matchesFrom_nil hp]; rfl)
        offset (by simp [hword]) (Nat.zero_le _)
    rw [Nat.zero_add, List.append_nil, Nat.add_zero] at hscan
    rw [matchesFrom_of_le hresume (Nat.le_refl offset), hscan]
  have hafter : ∀ resume offset last, resume ≤ offset →
      (p.matchesFrom resume offset last (sep :: back)).length = p.count back := by
    intro resume offset last hresume
    have hwithin : (Cursor.mk offset last []).Within 0 (sep :: back) ⟨offset, last, sep :: back⟩ :=
      ⟨rfl, rfl, rfl⟩
    have hnone := end?_eq_none_within hsep (by simp) hwithin (end?_eq_none_of_rest_nil hp _ _)
    simp only [matchesFrom, hnone, Nat.not_lt.2 hresume, if_false]
    exact hback _ _ (by omega)
  exact length_matchesFrom_append hp hsep (by simp) hafter 0 rfl (Nat.zero_le _)

end PlanAudit.Pattern
