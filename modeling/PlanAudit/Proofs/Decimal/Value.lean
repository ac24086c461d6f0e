import Mathlib.Algebra.Order.Field.Power
import Mathlib.Data.Rat.Cast.Order
import Mathlib.Tactic.Linarith
import Mathlib.Tactic.Positivity
import Mathlib.Tactic.Ring
import PlanAudit.Decimal.Binary64
import PlanAudit.Proofs.Decimal.Digits

/-! Decimals as numbers. Without zeros at the end there is only one way to write a number, so the
reduced form of a decimal depends on nothing but its value. -/
namespace PlanAudit.Decimal

def value (d : Decimal) : ℚ :=
  d.digits * 10 ^ d.exponent

theorem value_mk_mul_pow (n k : Nat) (e : Int) : value ⟨n * 10 ^ k, e⟩ = value ⟨n, e + k⟩ := by
  unfold value
  dsimp only
  rw [zpow_add₀ (by norm_num), zpow_natCast]
  push_cast
  ring

theorem value_eq_zero_iff {d : Decimal} : d.value = 0 ↔ d.digits = 0 := by
  have hpow : (10 : ℚ) ^ d.exponent ≠ 0 := by positivity
  rw [value, mul_eq_zero, or_iff_left hpow, Nat.cast_eq_zero]

theorem value_dropZeros (limit : Nat) (d : Decimal) : (dropZeros limit d).value = d.value := by
  induction limit generalizing d with
  | zero => rfl
  | succ limit ih =>
    rw [dropZeros]
    split_ifs with hzero
    · have hdigits : d.digits = d.digits / 10 * 10 ^ 1 := by omega
      rw [ih, ← Nat.cast_one, ← value_mk_mul_pow, ← hdigits]
    · rfl

theorem value_reduce (d : Decimal) : d.reduce.value = d.value := by
  unfold reduce
  split_ifs with hzero
  · rw [value_eq_zero_iff.2 hzero, value_eq_zero_iff]
  · exact value_dropZeros _ d

theorem digits_dropZeros_mod_ten {limit : Nat} {d : Decimal} (hpos : d.digits ≠ 0)
    (hlt : d.digits < 10 ^ (limit + 1)) : (dropZeros limit d).digits % 10 ≠ 0 := by
  induction limit generalizing d with
  | zero =>
    rw [dropZeros]
    omega
  | succ limit ih =>
    rw [dropZeros]
    split_ifs with hzero
    · apply ih
      · show d.digits / 10 ≠ 0
        omega
      · show d.digits / 10 < 10 ^ (limit + 1)
        rw [pow_succ] at hlt
        omega
    · exact hzero

/-- As many zeros as a number has binary digits are more than enough. -/
theorem digits_reduce_mod_ten {d : Decimal} (h : d.digits ≠ 0) : d.reduce.digits % 10 ≠ 0 := by
  rw [reduce, if_neg h]
  apply digits_dropZeros_mod_ten h
  calc d.digits < 2 ^ (d.digits.log2 + 1) := Nat.lt_log2_self
    _ ≤ 10 ^ (d.digits.log2 + 1) := Nat.pow_le_pow_left (by decide) _

/-- Of two decimals for one number, the one with the lesser exponent has zeros at its end. -/
theorem exponent_le_of_value_eq {a b : Decimal} (h : a.value = b.value) (ha : a.digits % 10 ≠ 0) :
    b.exponent ≤ a.exponent := by
  by_contra hlt
  obtain ⟨k, hk⟩ : ∃ k : Nat, b.exponent = a.exponent + 1 + k :=
    ⟨(b.exponent - a.exponent - 1).toNat, by omega⟩
  have hvalue : (a.digits : ℚ) * 10 ^ a.exponent = (b.digits * 10 ^ k * 10) * 10 ^ a.exponent := by
    rw [value, value, hk, zpow_add₀ (by norm_num), zpow_add₀ (by norm_num), zpow_one,
      zpow_natCast] at h
    rw [h]
    ring
  have hpow : (10 : ℚ) ^ a.exponent ≠ 0 := by positivity
  have hdigits : a.digits = b.digits * 10 ^ k * 10 := by
    exact_mod_cast mul_right_cancel₀ hpow hvalue
  omega

theorem reduce_congr {a b : Decimal} (h : a.value = b.value) : a.reduce = b.reduce := by
  by_cases ha : a.digits = 0
  · have hb : b.digits = 0 := by
      rw [← value_eq_zero_iff, ← h, value_eq_zero_iff]
      exact ha
    rw [reduce, reduce, if_pos ha, if_pos hb]
  · have hb : b.digits ≠ 0 := by
      rw [Ne, ← value_eq_zero_iff, ← h, value_eq_zero_iff]
      exact ha
    have hvalue : a.reduce.value = b.reduce.value := by
      rw [value_reduce, value_reduce, h]
    have hexponent : a.reduce.exponent = b.reduce.exponent :=
      le_antisymm (exponent_le_of_value_eq hvalue.symm (digits_reduce_mod_ten hb))
        (exponent_le_of_value_eq hvalue (digits_reduce_mod_ten ha))
    have hpow : (10 : ℚ) ^ b.reduce.exponent ≠ 0 := by positivity
    have hdigits : a.reduce.digits = b.reduce.digits := by
      rw [value, value, hexponent] at hvalue
      exact_mod_cast mul_right_cancel₀ hpow hvalue
    cases ha' : a.reduce
    cases hb' : b.reduce
    rw [ha', hb'] at hdigits hexponent
    rw [Decimal.mk.injEq]
    exact ⟨hdigits, hexponent⟩

theorem value_lt_pow_magnitude (d : Decimal) : d.value < 10 ^ d.magnitude := by
  have hlt : (d.digits : ℚ) < 10 ^ (Nat.toDigits 10 d.digits).length := by
    exact_mod_cast lt_pow_length_toDigits d.digits
  rw [value, magnitude, zpow_add₀ (by norm_num), zpow_natCast]
  exact mul_lt_mul_of_pos_right hlt (by positivity)

theorem pow_magnitude_le_value {d : Decimal} (h : d.digits ≠ 0) :
    10 ^ (d.magnitude - 1) ≤ d.value := by
  have hlength : 0 < (Nat.toDigits 10 d.digits).length := Nat.length_toDigits_pos
  have hle : (10 : ℚ) ^ ((Nat.toDigits 10 d.digits).length - 1) ≤ d.digits := by
    exact_mod_cast pow_length_toDigits_le (Nat.pos_of_ne_zero h)
  have hexponent : d.magnitude - 1 =
      ((Nat.toDigits 10 d.digits).length - 1 : Nat) + d.exponent := by
    unfold magnitude
    omega
  rw [value, hexponent, zpow_add₀ (by norm_num), zpow_natCast]
  exact mul_le_mul_of_nonneg_right hle (by positivity)

theorem ratio_pos (d : Decimal) : 0 < d.ratio.2 := by
  unfold ratio
  split_ifs
  · exact Nat.pow_pos (by decide)
  · exact Nat.one_pos

theorem value_eq_ratio (d : Decimal) : d.value = d.ratio.1 / d.ratio.2 := by
  unfold value ratio
  split_ifs with hneg
  · obtain ⟨k, hk⟩ : ∃ k : Nat, d.exponent = -k := ⟨(-d.exponent).toNat, by omega⟩
    rw [hk, neg_neg, Int.toNat_natCast, zpow_neg, zpow_natCast]
    show _ = (d.digits : ℚ) / ((10 ^ k : Nat) : ℚ)
    push_cast
    rw [div_eq_mul_inv]
  · obtain ⟨k, hk⟩ : ∃ k : Nat, d.exponent = k := ⟨d.exponent.toNat, by omega⟩
    rw [hk, Int.toNat_natCast, zpow_natCast]
    show _ = ((d.digits * 10 ^ k : Nat) : ℚ) / ((1 : Nat) : ℚ)
    push_cast
    rw [div_one]

end PlanAudit.Decimal
