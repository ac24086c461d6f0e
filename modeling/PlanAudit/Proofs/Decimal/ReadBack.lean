import Mathlib.Tactic.FieldSimp
import Mathlib.Tactic.NormNum.Pow
import PlanAudit.Decimal.Shortest
import PlanAudit.Proofs.Decimal.Value

/-! A binary64 number is the one nearest to its own value, and the digits that are written for it read
back as the number. -/
namespace PlanAudit

private theorem divTwoPow_pos {den : Nat} (h : 0 < den) (num : Nat) (power : Int) :
    0 < (divTwoPow num den power).2 := by
  unfold divTwoPow
  split_ifs
  · exact h
  · exact Nat.mul_pos h (Nat.pow_pos (by decide))

private theorem divTwoPow_quotient (num den : Nat) (power : Int) :
    ((divTwoPow num den power).1 : ℚ) / (divTwoPow num den power).2 = num / den / 2 ^ power := by
  unfold divTwoPow
  split_ifs with hneg
  · obtain ⟨k, hk⟩ : ∃ k : Nat, power = -k := ⟨(-power).toNat, by omega⟩
    rw [hk, neg_neg, Int.toNat_natCast, zpow_neg, zpow_natCast]
    show ((num * 2 ^ k : Nat) : ℚ) / den = _
    push_cast
    rw [div_inv_eq_mul, mul_div_right_comm]
  · obtain ⟨k, hk⟩ : ∃ k : Nat, power = k := ⟨power.toNat, by omega⟩
    rw [hk, Int.toNat_natCast, zpow_natCast]
    show (num : ℚ) / ((den * 2 ^ k : Nat) : ℚ) = _
    push_cast
    rw [div_div]

private theorem pow_log2_le {n : Nat} (h : 0 < n) : (2 : ℚ) ^ (n.log2 : Int) ≤ n := by
  rw [zpow_natCast]
  exact_mod_cast Nat.log2_self_le h.ne'

private theorem lt_pow_log2 (n : Nat) : (n : ℚ) < 2 ^ ((n.log2 : Int) + 1) := by
  have hlt : n < 2 ^ (n.log2 + 1) := Nat.lt_log2_self
  rw [zpow_add_one₀ (by norm_num), zpow_natCast, ← pow_succ]
  exact_mod_cast hlt

/-- The difference of the binary lengths is the power or one more. -/
theorem floorLog2_spec {num den : Nat} (hnum : 0 < num) (hden : 0 < den) :
    (2 : ℚ) ^ floorLog2 num den ≤ num / den ∧ (num / den : ℚ) < 2 ^ (floorLog2 num den + 1) := by
  have hden' : (0 : ℚ) < den := by exact_mod_cast hden
  have hscaled := divTwoPow_quotient num den (num.log2 - den.log2)
  have hpos : (0 : ℚ) < (divTwoPow num den (num.log2 - den.log2)).2 := by
    exact_mod_cast divTwoPow_pos hden num _
  have hpow : (0 : ℚ) < 2 ^ ((num.log2 : Int) - den.log2) := by positivity
  unfold floorLog2
  dsimp only
  split_ifs with hle
  · have hone : (1 : ℚ) ≤ num / den / 2 ^ ((num.log2 : Int) - den.log2) := by
      rw [← hscaled, le_div_iff₀ hpos, one_mul]
      exact_mod_cast hle
    constructor
    · rwa [le_div_iff₀ hpow, one_mul] at hone
    · rw [div_lt_iff₀ hden']
      calc (num : ℚ) < 2 ^ ((num.log2 : Int) + 1) := lt_pow_log2 num
        _ = 2 ^ ((num.log2 : Int) - den.log2 + 1) * 2 ^ (den.log2 : Int) := by
          rw [← zpow_add₀ (by norm_num)]
          congr 1
          omega
        _ ≤ 2 ^ ((num.log2 : Int) - den.log2 + 1) * den :=
          mul_le_mul_of_nonneg_left (pow_log2_le hden) (by positivity)
  · have hone : (num / den / 2 ^ ((num.log2 : Int) - den.log2) : ℚ) < 1 := by
      rw [← hscaled, div_lt_one hpos]
      exact_mod_cast Nat.not_le.1 hle
    constructor
    · rw [le_div_iff₀ hden']
      calc (2 : ℚ) ^ ((num.log2 : Int) - den.log2 - 1) * den
          ≤ 2 ^ ((num.log2 : Int) - den.log2 - 1) * 2 ^ ((den.log2 : Int) + 1) :=
          mul_le_mul_of_nonneg_left (lt_pow_log2 den).le (by positivity)
        _ = 2 ^ (num.log2 : Int) := by
          rw [← zpow_add₀ (by norm_num)]
          congr 1
          omega
        _ ≤ num := pow_log2_le hnum
    · rw [sub_add_cancel]
      rwa [div_lt_one hpow] at hone

theorem floorLog2_eq {num den : Nat} (hnum : 0 < num) (hden : 0 < den) {power : Int}
    (hle : (2 : ℚ) ^ power ≤ num / den) (hlt : (num / den : ℚ) < 2 ^ (power + 1)) :
    floorLog2 num den = power := by
  obtain ⟨hle', hlt'⟩ := floorLog2_spec hnum hden
  have hup : power < floorLog2 num den + 1 :=
    (zpow_lt_zpow_iff_right₀ (by norm_num)).1 (hle.trans_lt hlt')
  have hdown : floorLog2 num den < power + 1 :=
    (zpow_lt_zpow_iff_right₀ (by norm_num)).1 (hle'.trans_lt hlt)
  omega

private theorem roundQuotient_mul (n : Nat) {den : Nat} (h : 0 < den) :
    roundQuotient (n * den) den = n := by
  unfold roundQuotient
  rw [Nat.mul_mod_left, Nat.mul_div_cancel n h]
  exact if_pos h

namespace Binary64

variable {x : Binary64}

/-- The number without its sign. -/
def value (x : Binary64) : ℚ :=
  x.significand * 2 ^ x.exponent

theorem value_pos (h : x.significand ≠ 0) : 0 < x.value := by
  have hpos : (0 : ℚ) < x.significand := by exact_mod_cast Nat.pos_of_ne_zero h
  unfold value
  positivity

/-- The exponent of a number that is rounded to 53 bits is the one it is stored with. -/
theorem max_floorLog2_eq_exponent (h : x.significand ≠ 0) {num den : Nat} (hnum : 0 < num)
    (hden : 0 < den) (hvalue : (num / den : ℚ) = x.value) :
    max (-1074) (floorLog2 num den - 52) = x.exponent := by
  obtain ⟨hlimit, hleast, _, hfull⟩ := x.canonical
  have hpow : (0 : ℚ) < 2 ^ x.exponent := by positivity
  have hlog : floorLog2 num den = x.significand.log2 + x.exponent := by
    apply floorLog2_eq hnum hden
    · rw [hvalue, value, zpow_add₀ (by norm_num)]
      exact mul_le_mul_of_nonneg_right (pow_log2_le (Nat.pos_of_ne_zero h)) hpow.le
    · rw [hvalue, value, add_right_comm, zpow_add₀ (by norm_num)]
      exact mul_lt_mul_of_pos_right (lt_pow_log2 _) hpow
  have hlog_lt : x.significand.log2 < 53 := (Nat.log2_lt h).2 hlimit
  rw [hlog]
  rcases hfull with hfull | hleast'
  · have hlog_ge : 52 ≤ x.significand.log2 := by
      rw [Nat.le_log2 h]
      unfold limit at hfull
      omega
    omega
  · omega

/-- A quotient that is a binary64 number needs no rounding. -/
theorem ofQuotient?_eq (h : x.significand ≠ 0) {num den : Nat} (hnum : 0 < num) (hden : 0 < den)
    (hvalue : (num / den : ℚ) = x.value) : ofQuotient? x.negative num den = some x := by
  have hexponent := max_floorLog2_eq_exponent h hnum hden hvalue
  have hpos := divTwoPow_pos hden num x.exponent
  have hscaled : (divTwoPow num den x.exponent).1 =
      x.significand * (divTwoPow num den x.exponent).2 := by
    have hquotient := divTwoPow_quotient num den x.exponent
    have hpos' : (0 : ℚ) < (divTwoPow num den x.exponent).2 := by exact_mod_cast hpos
    rw [hvalue, value, mul_div_assoc, div_self (by positivity), mul_one,
      div_eq_iff hpos'.ne'] at hquotient
    exact_mod_cast hquotient
  have hround : roundQuotient (divTwoPow num den x.exponent).1 (divTwoPow num den x.exponent).2 =
      x.significand := by
    rw [hscaled, roundQuotient_mul _ hpos]
  have hlimit : x.significand ≠ limit := x.canonical.1.ne
  unfold ofQuotient?
  simp only [hexponent, hround, if_neg hlimit]
  exact dif_pos x.canonical

private theorem two_pow_1074_le : 2 ^ 1074 ≤ 10 ^ 331 :=
  calc 2 ^ 1074 = (2 ^ 33) ^ 32 * 2 ^ 18 := by rw [← pow_mul, ← pow_add]
    _ ≤ (10 ^ 10) ^ 32 * 10 ^ 11 :=
      Nat.mul_le_mul (Nat.pow_le_pow_left (by norm_num) 32) (by norm_num)
    _ = 10 ^ 331 := by rw [← pow_mul, ← pow_add]

private theorem two_pow_1024_le : 2 ^ 1024 ≤ 10 ^ 310 :=
  calc 2 ^ 1024 = (2 ^ 256) ^ 4 := by rw [← pow_mul]
    _ ≤ (12 * 10 ^ 76) ^ 4 := Nat.pow_le_pow_left (by norm_num) 4
    _ = 12 ^ 4 * 10 ^ 304 := by rw [mul_pow, ← pow_mul]
    _ ≤ 10 ^ 6 * 10 ^ 304 := Nat.mul_le_mul_right _ (by norm_num)
    _ = 10 ^ 310 := by rw [← pow_add]

/-- The least binary64 number that is not zero is greater than 1e-331, and all are less than 1e310. -/
theorem magnitude_bounds (h : x.significand ≠ 0) {d : Decimal} (hvalue : d.value = x.value) :
    -330 ≤ d.magnitude ∧ d.magnitude ≤ 310 := by
  obtain ⟨hlimit, hleast, hgreatest, _⟩ := x.canonical
  have hdigits : d.digits ≠ 0 := by
    rw [Ne, ← Decimal.value_eq_zero_iff, hvalue]
    exact (value_pos h).ne'
  have hlow : (2 : ℚ) ^ (-1074 : Int) ≤ d.value := by
    have hone : (1 : ℚ) ≤ x.significand := by exact_mod_cast Nat.pos_of_ne_zero h
    have hpow : (2 : ℚ) ^ (-1074 : Int) ≤ 2 ^ x.exponent :=
      zpow_le_zpow_right₀ (by norm_num) hleast
    rw [hvalue, value]
    calc (2 : ℚ) ^ (-1074 : Int) = 1 * 2 ^ (-1074 : Int) := (one_mul _).symm
      _ ≤ x.significand * 2 ^ x.exponent := mul_le_mul hone hpow (by positivity) (by positivity)
  have hhigh : d.value < (2 : ℚ) ^ (1024 : Int) := by
    have hlt : (x.significand : ℚ) < 2 ^ (53 : Int) := by
      rw [show (2 : ℚ) ^ (53 : Int) = (limit : Nat) by norm_num [limit]]
      exact_mod_cast hlimit
    have hpow : (2 : ℚ) ^ x.exponent ≤ 2 ^ (971 : Int) :=
      zpow_le_zpow_right₀ (by norm_num) hgreatest
    rw [hvalue, value]
    calc x.significand * (2 : ℚ) ^ x.exponent < 2 ^ (53 : Int) * 2 ^ (971 : Int) :=
          mul_lt_mul hlt hpow (by positivity) (by positivity)
      _ = 2 ^ (1024 : Int) := by rw [← zpow_add₀ (by norm_num)]; norm_num
  constructor
  · have hlt := hlow.trans_lt (Decimal.value_lt_pow_magnitude d)
    by_contra hsmall
    have hpow : (10 : ℚ) ^ d.magnitude ≤ 10 ^ (-331 : Int) :=
      zpow_le_zpow_right₀ (by norm_num) (by omega)
    have hless : (10 : ℚ) ^ (-331 : Int) ≤ 2 ^ (-1074 : Int) := by
      rw [zpow_neg, zpow_neg]
      exact inv_anti₀ (by positivity) (by exact_mod_cast two_pow_1074_le)
    exact absurd (hlt.trans_le hpow) (not_lt.2 hless)
  · have hlt := (Decimal.pow_magnitude_le_value hdigits).trans_lt hhigh
    by_contra hlarge
    have hpow : (10 : ℚ) ^ (310 : Int) ≤ 10 ^ (d.magnitude - 1) :=
      zpow_le_zpow_right₀ (by norm_num) (by omega)
    have hless : (2 : ℚ) ^ (1024 : Int) ≤ 10 ^ (310 : Int) := by exact_mod_cast two_pow_1024_le
    exact absurd (hpow.trans_lt hlt) (not_lt.2 hless)

theorem ofDecimal?_congr (negative : Bool) {a b : Decimal} (h : a.value = b.value) :
    ofDecimal? negative a = ofDecimal? negative b := by
  unfold ofDecimal?
  rw [Decimal.reduce_congr h]

/-- A decimal that is a binary64 number is read as that number. -/
theorem ofDecimal?_eq (h : x.significand ≠ 0) {d : Decimal} (hvalue : d.value = x.value) :
    ofDecimal? x.negative d = some x := by
  have hreduced : d.reduce.value = x.value := by rw [Decimal.value_reduce, hvalue]
  have hdigits : d.reduce.digits ≠ 0 := by
    rw [Ne, ← Decimal.value_eq_zero_iff, hreduced]
    exact (value_pos h).ne'
  obtain ⟨hleast, hgreatest⟩ := magnitude_bounds h hreduced
  have hratio : (d.reduce.ratio.1 / d.reduce.ratio.2 : ℚ) = x.value := by
    rw [← Decimal.value_eq_ratio, hreduced]
  have hnum : 0 < d.reduce.ratio.1 := by
    by_contra hzero
    rw [Nat.eq_zero_of_not_pos hzero, Nat.cast_zero, zero_div] at hratio
    exact (value_pos h).ne hratio
  unfold ofDecimal?
  dsimp only
  rw [if_neg (by omega), if_neg (by omega)]
  exact ofQuotient?_eq h hnum (Decimal.ratio_pos _) hratio

theorem value_expansion (x : Binary64) : x.expansion.value = x.value := by
  unfold expansion value
  split_ifs with hneg
  · obtain ⟨k, hk⟩ : ∃ k : Nat, x.exponent = -k := ⟨(-x.exponent).toNat, by omega⟩
    rw [hk, neg_neg, Int.toNat_natCast]
    unfold Decimal.value
    show ((x.significand * 5 ^ k : Nat) : ℚ) * 10 ^ (-k : Int) = _
    rw [zpow_neg, zpow_neg, zpow_natCast, zpow_natCast, show (10 : ℚ) = 5 * 2 by norm_num, mul_pow]
    push_cast
    field_simp
  · obtain ⟨k, hk⟩ : ∃ k : Nat, x.exponent = k := ⟨x.exponent.toNat, by omega⟩
    rw [hk, Int.toNat_natCast]
    unfold Decimal.value
    show ((x.significand * 2 ^ k : Nat) : ℚ) * 10 ^ (0 : Int) = _
    rw [zpow_natCast, zpow_zero, mul_one]
    push_cast
    rfl

theorem ofDecimal?_neighbour {count : Nat} {d : Decimal} (h : x.neighbour? count = some d) :
    ofDecimal? x.negative d = some x := by
  have hreads : x.isNearestTo d = true := by
    unfold neighbour? at h
    dsimp only at h
    generalize (if x.decade - (count : Int) + 1 < 0 then _ else _ : Nat × Nat) = quotient at h
    split at h
    case h_1 hbelow habove =>
      split_ifs at h
      · cases h
        exact hbelow
      · cases h
        exact habove
    case h_2 hbelow _ =>
      cases h
      exact hbelow
    case h_3 _ habove =>
      cases h
      exact habove
    case h_4 => cases h
  exact beq_iff_eq.1 hreads

private theorem eq_zero_of_significand (h : x.significand = 0) : x = zero x.negative := by
  obtain ⟨negative, significand, exponent, hcanonical⟩ := x
  subst h
  obtain rfl : exponent = -1074 := by
    rcases hcanonical with ⟨_, _, _, hfull | hleast⟩
    · exact absurd hfull (by decide)
    · exact hleast
  rfl

/-- The digits that are chosen for a number are read as the number. -/
theorem ofDecimal?_shortest (x : Binary64) : ofDecimal? x.negative x.shortest = some x := by
  unfold shortest
  split_ifs with hzero
  · exact congrArg some (eq_zero_of_significand hzero).symm
  · rw [ofDecimal?_congr x.negative (Decimal.value_reduce _)]
    cases hfound : (List.range' 1 17).findSome? x.neighbour? with
    | none => exact ofDecimal?_eq hzero x.value_expansion
    | some d =>
      obtain ⟨count, _, hcount⟩ := List.exists_of_findSome?_eq_some hfound
      exact ofDecimal?_neighbour hcount

end Binary64

end PlanAudit
