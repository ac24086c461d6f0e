import PlanAudit.Json.Printer
import PlanAudit.Proofs.Decimal.Digits

/-! The characters that the text of a number is made of. -/
namespace PlanAudit

def numberChars : List Char :=
  ['0', '1', '2', '3', '4', '5', '6', '7', '8', '9', '.', 'e', '+', '-']

def Numeric (cs : List Char) : Prop :=
  ∀ c ∈ cs, c ∈ numberChars

instance (cs : List Char) : Decidable (Numeric cs) :=
  decidable_of_iff (cs.all numberChars.contains = true)
    (by simp only [Numeric, List.all_eq_true, List.contains_iff_mem])

private theorem numeric_append {cs ds : List Char} :
    Numeric (cs ++ ds) ↔ Numeric cs ∧ Numeric ds :=
  List.forall_mem_append

private theorem numeric_cons {c : Char} {cs : List Char} :
    Numeric (c :: cs) ↔ c ∈ numberChars ∧ Numeric cs :=
  List.forall_mem_cons

private theorem mem_numberChars_of_isDigit {c : Char} (h : c.isDigit = true) : c ∈ numberChars := by
  have hdigits : ∀ n : Fin 10, Char.ofNat (48 + n) ∈ numberChars := by decide
  have hbounds := isDigit_bounds h
  have hmem := hdigits ⟨c.toNat - 48, by omega⟩
  rwa [show 48 + (c.toNat - 48) = c.toNat by omega, Char.ofNat_toNat] at hmem

private theorem numeric_toDigits (n : Nat) : Numeric (Nat.toDigits 10 n) :=
  fun c hc => mem_numberChars_of_isDigit (toDigits_isDigit n c hc)

private theorem numeric_replicate_zero (n : Nat) : Numeric (List.replicate n '0') :=
  fun c hc => mem_numberChars_of_isDigit (replicate_zero_isDigit n c hc)

section Digits

variable {digits : List Char} (h : Numeric digits) (power : Int)
include h

private theorem numeric_take (n : Nat) : Numeric (digits.take n) :=
  fun c hc => h c (List.mem_of_mem_take hc)

private theorem numeric_drop (n : Nat) : Numeric (digits.drop n) :=
  fun c hc => h c (List.mem_of_mem_drop hc)

private theorem numeric_writePositional : Numeric (writePositional digits power) := by
  unfold writePositional
  split
  · simp only [numeric_append, numeric_cons]
    exact ⟨⟨by decide, by decide, numeric_replicate_zero _⟩, h⟩
  · dsimp only
    simp only [numeric_append, numeric_cons]
    refine ⟨⟨numeric_take h _, numeric_replicate_zero _⟩, by decide, ?_⟩
    split
    · decide
    · exact numeric_drop h _

private theorem numeric_writeScientific : Numeric (writeScientific digits power) := by
  unfold writeScientific
  dsimp only
  simp only [numeric_append, numeric_cons]
  refine ⟨⟨numeric_take h 1, ?_⟩, by decide, ?_, numeric_toDigits _⟩
  · split
    · decide
    · exact numeric_cons.2 ⟨by decide, numeric_drop h 1⟩
  · split <;> decide

end Digits

theorem numeric_write (layout : DecimalLayout) (negative : Bool) (d : Decimal) :
    Numeric (d.write layout negative) := by
  have htext : Numeric (d.writeUnsigned layout) := by
    unfold Decimal.writeUnsigned
    dsimp only
    split
    · decide
    · split
      · exact numeric_writePositional (numeric_toDigits _) _
      · exact numeric_writeScientific (numeric_toDigits _) _
  unfold Decimal.write
  split
  · exact numeric_cons.2 ⟨by decide, htext⟩
  · exact htext

theorem Json.numeric_intChars (n : Int) : Numeric (intChars n) := by
  unfold intChars
  split
  · exact numeric_cons.2 ⟨by decide, numeric_toDigits _⟩
  · exact numeric_toDigits _

end PlanAudit
