import PlanAudit.Json.Printer
import PlanAudit.Json.Reader

/-! Strings in JSON text: what is written for a character is read as that character. -/
namespace PlanAudit.Json

private theorem hexValue?_digitChar {n : Nat} (h : n < 16) :
    hexValue? (Nat.digitChar n) = some n := by
  have hall : ∀ n : Fin 16, hexValue? (Nat.digitChar n) = some n.val := by decide
  exact hall ⟨n, h⟩

private theorem hexQuad?_hexPair {n : Nat} (h : n < 256) (rest : List Char) :
    hexQuad? ('0' :: '0' :: (hexPair n ++ rest)) = some n := by
  have hzero : hexValue? '0' = some 0 := rfl
  have hhigh : hexValue? (Nat.digitChar (n / 16)) = some (n / 16) :=
    hexValue?_digitChar (by omega)
  have hlow : hexValue? (Nat.digitChar (n % 16)) = some (n % 16) :=
    hexValue?_digitChar (by omega)
  have hsum : ((0 * 16 + 0) * 16 + n / 16) * 16 + n % 16 = n := by omega
  simp only [hexPair, List.cons_append, List.nil_append, hexQuad?, hzero, hhigh, hlow,
    Option.bind_eq_bind, Option.bind_some, hsum]
  rfl

/-- The escape of a control character that has no letter of its own. -/
theorem readEscape_hexPair {c : Char} (h : c.toNat < 32) (rest : List Char) :
    readEscape ('u' :: '0' :: '0' :: (hexPair c.toNat ++ rest)) = .ok (c, 5) := by
  have hread : readHexQuad ('0' :: '0' :: (hexPair c.toNat ++ rest)) = .ok c.toNat := by
    unfold readHexQuad
    rw [hexQuad?_hexPair (by omega)]
  have hlow : isLowSurrogate c.toNat = false := by
    unfold isLowSurrogate
    simp only [Bool.and_eq_false_iff, decide_eq_false_iff_not]
    omega
  have hhigh : isHighSurrogate c.toNat = false := by
    unfold isHighSurrogate
    simp only [Bool.and_eq_false_iff, decide_eq_false_iff_not]
    omega
  simp only [readEscape, hread, bind, Except.bind, hlow, hhigh, Bool.false_eq_true, if_false,
    Char.ofNat_toNat]
  rfl

theorem readString_escape (done : List Char) (c : Char) (rest : List Char) :
    readString done 0 (escape c ++ rest) = readString (c :: done) 0 rest := by
  unfold escape
  split
  case h_8 hquote hbackslash _ _ _ _ _ =>
    split
    case isTrue hcontrol =>
      rw [List.append_assoc]
      show readString done 0 ('\\' :: 'u' :: '0' :: '0' :: (hexPair c.toNat ++ rest)) = _
      rw [readString, if_neg (by decide), if_pos rfl, readEscape_hexPair hcontrol]
      rfl
    case isFalse hplain =>
      rw [List.singleton_append, readString, if_neg hquote, if_neg hbackslash, if_neg hplain]
  all_goals rfl

theorem readString_escaped (done cs rest : List Char) :
    readString done 0 (cs.flatMap escape ++ '"' :: rest) =
      .ok (String.ofList (done.reverse ++ cs), rest) := by
  induction cs generalizing done with
  | nil =>
    rw [List.flatMap_nil, List.nil_append, List.append_nil, readString, if_pos rfl]
  | cons c cs ih =>
    rw [List.flatMap_cons, List.append_assoc, readString_escape, ih, List.reverse_cons,
      List.append_assoc, List.singleton_append]

/-- A string behind its opening quotation mark is read as it was written. -/
theorem readString_toList (s : String) (rest : List Char) :
    readString [] 0 (s.toList.flatMap escape ++ '"' :: rest) = .ok (s, rest) := by
  rw [readString_escaped, List.reverse_nil, List.nil_append, String.ofList_toList]

end PlanAudit.Json
