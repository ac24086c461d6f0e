import Mathlib.Algebra.Group.Nat.Defs
import Mathlib.Tactic.SplitIfs
import PlanAudit.Text.Order

/-! The order of texts by their code points is the order of their bytes. -/
namespace PlanAudit.Text

def bytes (s : String) : List UInt8 :=
  s.toUTF8.data.toList

theorem bytes_eq (s : String) : bytes s = s.toList.flatMap String.utf8EncodeChar := by
  rw [bytes, String.toUTF8, ← String.utf8Encode_toList]
  simp [List.utf8Encode]

/-- A first byte that holds less than `limit` above its `mark`, and further bytes that hold six bits
each. -/
def byteRun (mark limit : Nat) : (further : Nat) → Nat → List UInt8
  | 0, n => [UInt8.ofNat (n % limit + mark)]
  | further + 1, n => byteRun mark limit further (n / 64) ++ [UInt8.ofNat (n % 64 + 128)]

private theorem ofNat_lt_ofNat {n m : Nat} (h : n < m) (hm : m < 256) :
    UInt8.ofNat n < UInt8.ofNat m := by
  rw [UInt8.lt_iff_toNat_lt, UInt8.toNat_ofNat', UInt8.toNat_ofNat']
  omega

private theorem byteRun_lt {mark limit further n m : Nat} (hmark : limit + mark ≤ 256) (h : n < m)
    (hm : m < limit * 64 ^ further) (rest more : List UInt8) :
    byteRun mark limit further n ++ rest < byteRun mark limit further m ++ more := by
  induction further generalizing n m rest more with
  | zero =>
    rw [Nat.pow_zero, Nat.mul_one] at hm
    refine List.cons_lt_cons_iff.2 (.inl ?_)
    rw [Nat.mod_eq_of_lt hm, Nat.mod_eq_of_lt (by omega)]
    exact ofNat_lt_ofNat (by omega) (by omega)
  | succ further ih =>
    simp only [byteRun, List.append_assoc]
    rcases Nat.lt_or_ge (n / 64) (m / 64) with hlt | hge
    · refine ih hlt ?_ _ _
      rw [Nat.pow_succ, ← Nat.mul_assoc] at hm
      exact Nat.div_lt_of_lt_mul (Nat.mul_comm _ 64 ▸ hm)
    · obtain heq : n / 64 = m / 64 := by omega
      rw [heq]
      exact List.append_left_lt (List.cons_lt_cons_iff.2 (.inl (ofNat_lt_ofNat (by omega) (by omega))))

theorem utf8EncodeChar_eq (c : Char) :
    String.utf8EncodeChar c =
      if c.toNat ≤ 0x7f then byteRun 0 128 0 c.toNat
      else if c.toNat ≤ 0x7ff then byteRun 0xc0 32 1 c.toNat
      else if c.toNat ≤ 0xffff then byteRun 0xe0 16 2 c.toNat
      else byteRun 0xf0 8 3 c.toNat := by
  unfold String.utf8EncodeChar
  simp only [byteRun, Nat.div_div_eq_div_mul, Char.toNat_val]
  split_ifs with hone
  · rw [Nat.mod_eq_of_lt (by omega)]
    rfl
  all_goals rfl

/-- More bytes stand for greater characters, and the first byte tells how many there are. -/
theorem utf8EncodeChar_lt {a b : Char} (h : a.toNat < b.toNat) (rest more : List UInt8) :
    String.utf8EncodeChar a ++ rest < String.utf8EncodeChar b ++ more := by
  have hvalid : b.toNat < 0x110000 := by
    have hb := b.valid
    simp only [UInt32.isValidChar, Nat.isValidChar, Char.toNat_val] at hb
    omega
  have hfirst : ∀ {x y : Nat} {xs ys : List UInt8}, x < y → y < 256 →
      UInt8.ofNat x :: xs < UInt8.ofNat y :: ys := fun hxy hy =>
    List.cons_lt_cons_iff.2 (.inl (ofNat_lt_ofNat hxy hy))
  rw [utf8EncodeChar_eq, utf8EncodeChar_eq]
  -- six of the sixteen cases have more bytes for the lesser character
  split_ifs <;> try omega
  · exact byteRun_lt (by decide) h (by omega) _ _
  · exact hfirst (by omega) (by omega)
  · exact hfirst (by omega) (by omega)
  · exact hfirst (by omega) (by omega)
  · exact byteRun_lt (by decide) h (by omega) _ _
  · exact hfirst (by omega) (by omega)
  · exact hfirst (by omega) (by omega)
  · exact byteRun_lt (by decide) h (by omega) _ _
  · exact hfirst (by omega) (by omega)
  · exact byteRun_lt (by decide) h (by omega) _ _

theorem bytes_lt_of_charsBefore {as bs : List Char} (h : charsBefore as bs = true) :
    as.flatMap String.utf8EncodeChar < bs.flatMap String.utf8EncodeChar := by
  induction as generalizing bs with
  | nil =>
    cases bs with
    | nil => cases h
    | cons b bs =>
      obtain ⟨x, xs, hxs⟩ := List.exists_cons_of_ne_nil (@String.utf8EncodeChar_ne_nil b)
      rw [List.flatMap_cons, hxs]
      exact List.nil_lt_cons _ _
  | cons a as ih =>
    cases bs with
    | nil => cases h
    | cons b bs =>
      simp only [charsBefore, Bool.or_eq_true, decide_eq_true_eq, Bool.and_eq_true, beq_iff_eq] at h
      rw [List.flatMap_cons, List.flatMap_cons]
      rcases h with h | ⟨rfl, h⟩
      · exact utf8EncodeChar_lt h _ _
      · exact List.append_left_lt (ih h)

theorem before_iff_bytes_lt (a b : String) : before a b = true ↔ bytes a < bytes b := by
  rw [bytes_eq, bytes_eq]
  refine ⟨bytes_lt_of_charsBefore, fun hlt => ?_⟩
  cases hab : before a b with
  | true => rfl
  | false =>
    cases hba : before b a with
    | true => exact absurd (bytes_lt_of_charsBefore hba) (List.lt_asymm hlt)
    | false => exact absurd (before_total hab hba ▸ hlt) (List.lt_irrefl _)

end PlanAudit.Text
