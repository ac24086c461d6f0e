import PlanAudit.Json.Printer
import PlanAudit.Proofs.Decimal.ReadBack

/-! Numbers in JSON text. An integer is read from its digits, and a float from the digits that are
written for it, with the decimal point and the exponent wherever they stand. -/
namespace PlanAudit

namespace Json

/-- What may stand behind a value: nothing, a blank, a comma or a closing bracket. -/
def EndsValue (rest : List Char) : Prop :=
  ∀ c ∈ rest.head?, isBlank c = true ∨ c ∈ [',', ']', '\x7d']

theorem endsValue_nil : EndsValue [] := by
  intro c hc
  cases hc

theorem endsValue_cons {c : Char} (h : isBlank c = true ∨ c ∈ [',', ']', '\x7d'])
    (rest : List Char) : EndsValue (c :: rest) := by
  intro d hd
  cases hd
  exact h

/-- No number goes on behind a value. -/
theorem EndsValue.head_ne {c : Char} {rest : List Char} (h : EndsValue (c :: rest)) :
    c.isDigit = false ∧ c ≠ '.' ∧ c ≠ 'e' ∧ c ≠ 'E' := by
  have hc := h c rfl
  simp only [isBlank, Bool.or_eq_true, beq_iff_eq, List.mem_cons, List.not_mem_nil, or_false] at hc
  rcases hc with (((rfl | rfl) | rfl) | rfl) | rfl | rfl | rfl <;> decide

theorem EndsValue.noDigitFirst {rest : List Char} (h : EndsValue rest) : NoDigitFirst rest := by
  cases rest with
  | nil =>
    intro c hc
    cases hc
  | cons c rest => exact noDigitFirst_cons h.head_ne.1 rest

/-- Digits before the decimal point: at least one, and no zero before others. -/
structure LeadingDigits (digits : List Char) : Prop where
  isDigit : ∀ c ∈ digits, c.isDigit = true
  ne_nil : digits ≠ []
  no_zero_first : ∀ d ds, digits ≠ '0' :: d :: ds

section Reading

variable [FloatFormat] {negative : Bool} {digits : List Char} {rest : List Char}

/-- What stands behind the digits decides how the number goes on. -/
theorem readNumber_eq (h : LeadingDigits digits) (hrest : NoDigitFirst rest) :
    readNumber negative (digits ++ rest) =
      match rest with
      | '.' :: cs => readFraction negative digits cs
      | 'e' :: cs => readExponent negative digits [] cs
      | 'E' :: cs => readExponent negative digits [] cs
      | rest => integerOf negative digits rest := by
  unfold readNumber
  rw [takeWhile_digits h.isDigit hrest, dropWhile_digits h.isDigit hrest]
  dsimp only
  split
  case h_1 => exact absurd rfl h.ne_nil
  case h_2 => exact absurd rfl h.ne_nil
  case h_3 d ds => exact absurd rfl (h.no_zero_first d ds)
  case h_7 => simp_all
  all_goals rfl

theorem readNumber_integer (h : LeadingDigits digits) (hrest : EndsValue rest) :
    readNumber negative (digits ++ rest) = integerOf negative digits rest := by
  rw [readNumber_eq h hrest.noDigitFirst]
  split
  case h_1 => exact absurd rfl hrest.head_ne.2.1
  case h_2 => exact absurd rfl hrest.head_ne.2.2.1
  case h_3 => exact absurd rfl hrest.head_ne.2.2.2
  case h_4 => rfl

theorem readNumber_point (h : LeadingDigits digits) (rest : List Char) :
    readNumber negative (digits ++ '.' :: rest) = readFraction negative digits rest :=
  readNumber_eq h (noDigitFirst_cons rfl rest)

theorem readNumber_exponent (h : LeadingDigits digits) (rest : List Char) :
    readNumber negative (digits ++ 'e' :: rest) = readExponent negative digits [] rest :=
  readNumber_eq h (noDigitFirst_cons rfl rest)

variable {fraction : List Char} (hfraction : ∀ c ∈ fraction, c.isDigit = true) (hne : fraction ≠ [])
include hfraction hne

private theorem readFraction_eq (hrest : NoDigitFirst rest) :
    readFraction negative digits (fraction ++ rest) =
      match rest with
      | 'e' :: cs => readExponent negative digits fraction cs
      | 'E' :: cs => readExponent negative digits fraction cs
      | rest => floatOf ⟨negative, digits, fraction, 0⟩ rest rest := by
  unfold readFraction
  rw [takeWhile_digits hfraction hrest, dropWhile_digits hfraction hrest]
  dsimp only
  split
  case h_1 => exact absurd rfl hne
  case h_2 => exact absurd rfl hne
  case h_5 => simp_all
  all_goals rfl

private theorem readFraction_end (hrest : EndsValue rest) :
    readFraction negative digits (fraction ++ rest) =
      floatOf ⟨negative, digits, fraction, 0⟩ rest rest := by
  rw [readFraction_eq hfraction hne hrest.noDigitFirst]
  split
  case h_1 => exact absurd rfl hrest.head_ne.2.2.1
  case h_2 => exact absurd rfl hrest.head_ne.2.2.2
  case h_3 => rfl

private theorem readFraction_exponent (rest : List Char) :
    readFraction negative digits (fraction ++ 'e' :: rest) =
      readExponent negative digits fraction rest :=
  readFraction_eq hfraction hne (noDigitFirst_cons rfl rest)

omit hfraction hne

/-- An exponent with its sign. -/
theorem readExponent_signed (negative : Bool) (whole fraction : List Char) (power : Int)
    (hrest : EndsValue rest) :
    ∃ place, readExponent negative whole fraction
        ((if power < 0 then '-' else '+') :: (Nat.toDigits 10 power.natAbs ++ rest)) =
      floatOf ⟨negative, whole, fraction, power⟩ place rest := by
  obtain ⟨c, cs, hcs⟩ := List.exists_cons_of_ne_nil (Nat.toDigits_ne_nil (n := power.natAbs) (b := 10))
  have hc : c.isDigit = true := toDigits_isDigit power.natAbs c (by rw [hcs]; exact List.mem_cons_self)
  have htake := takeWhile_digits (toDigits_isDigit power.natAbs) hrest.noDigitFirst
  have hdrop := dropWhile_digits (toDigits_isDigit power.natAbs) hrest.noDigitFirst
  rw [hcs, List.cons_append] at htake hdrop
  have hpower : natOfDigits (c :: cs) = power.natAbs := by rw [← hcs, natOfDigits_toDigits]
  rw [hcs, List.cons_append]
  refine ⟨(exponentExcess 0 (c :: (cs ++ rest))).getD rest, ?_⟩
  unfold readExponent
  by_cases hneg : power < 0
  · have hsign : -(power.natAbs : Int) = power := by omega
    simp only [if_pos hneg, hc, htake, hdrop, hpower, if_true, hsign]
  · have hsign : (power.natAbs : Int) = power := by omega
    simp only [if_neg hneg, hc, htake, hdrop, hpower, if_true, hsign, Bool.false_eq_true, if_false]

end Reading

theorem leadingDigits_toDigits (n : Nat) : LeadingDigits (Nat.toDigits 10 n) := by
  refine ⟨toDigits_isDigit n, Nat.toDigits_ne_nil, ?_⟩
  intro d ds hdigits
  by_cases hn : n = 0
  · subst hn
    cases hdigits
  · apply head?_toDigits_ne_zero (Nat.pos_of_ne_zero hn)
    rw [hdigits]
    rfl

theorem leadingDigits_zero : LeadingDigits ['0'] :=
  leadingDigits_toDigits 0

/-- The text is the numeral without its sign: whatever ends the number, the float of the numeral is
read. -/
structure Spells [FloatFormat] (text : List Char) (n : Numeral) : Prop where
  starts : ∃ c cs, text = c :: cs ∧ c.isDigit = true
  reads : ∀ rest, EndsValue rest →
    ∃ place, readNumber n.negative (text ++ rest) = floatOf n place rest

theorem LeadingDigits.starts {digits : List Char} (h : LeadingDigits digits) (tail : List Char) :
    ∃ c cs, digits ++ tail = c :: cs ∧ c.isDigit = true := by
  obtain ⟨c, cs, rfl⟩ := List.exists_cons_of_ne_nil h.ne_nil
  exact ⟨c, cs ++ tail, rfl, h.isDigit c List.mem_cons_self⟩

theorem spells_point [FloatFormat] (negative : Bool) {whole fraction : List Char}
    (hwhole : LeadingDigits whole) (hfraction : ∀ c ∈ fraction, c.isDigit = true)
    (hne : fraction ≠ []) :
    Spells (whole ++ '.' :: fraction) ⟨negative, whole, fraction, 0⟩ where
  starts := hwhole.starts _
  reads := by
    intro rest hrest
    refine ⟨rest, ?_⟩
    rw [List.append_assoc, List.cons_append, readNumber_point hwhole,
      readFraction_end hfraction hne hrest]

section Writing

variable {digits : List Char} (negative : Bool) (power : Int)
  (hdigits : ∀ c ∈ digits, c.isDigit = true) (hne : digits ≠ []) (hfirst : digits.head? ≠ some '0')
include hdigits hne hfirst

omit hdigits in
private theorem no_zero_first_of_head? (tail : List Char) (d : Char) (ds : List Char) :
    digits ++ tail ≠ '0' :: d :: ds := by
  intro h
  apply hfirst
  rw [← List.head?_append_of_ne_nil _ hne, h]
  rfl

/-- The digits before the decimal point, where the number is not below one. -/
theorem leadingDigits_take (count : Nat) (hcount : 0 < count) :
    LeadingDigits (digits.take count ++ List.replicate (count - digits.length) '0') := by
  have hhead : (digits.take count).head? ≠ some '0' := by
    rwa [List.head?_take, if_neg (by omega)]
  have htake : digits.take count ≠ [] := by
    intro h
    rcases List.take_eq_nil_iff.1 h with h | h
    · omega
    · exact hne h
  refine ⟨List.forall_mem_append.2 ⟨?_, replicate_zero_isDigit _⟩, by simp [htake],
    no_zero_first_of_head? htake hhead _⟩
  intro c hc
  exact hdigits c (List.mem_of_mem_take hc)

/-- The digits on both sides of the decimal point give the number that is written. -/
theorem writePositional_eq :
    ∃ front fraction, writePositional digits power = front ++ '.' :: fraction ∧
      LeadingDigits front ∧ (∀ c ∈ fraction, c.isDigit = true) ∧ fraction ≠ [] ∧
      Decimal.value ⟨natOfDigits (front ++ fraction), -fraction.length⟩ =
        Decimal.value ⟨natOfDigits digits, power + 1 - digits.length⟩ := by
  unfold writePositional
  split
  case isTrue hpower =>
    -- A zero stands before the point, and more of them before the digits.
    refine ⟨['0'], List.replicate (-power - 1).toNat '0' ++ digits, rfl, leadingDigits_zero,
      List.forall_mem_append.2 ⟨replicate_zero_isDigit _, hdigits⟩, by simp [hne], ?_⟩
    have hzero : natOfDigits ['0'] = 0 := rfl
    rw [natOfDigits_append, natOfDigits_append, natOfDigits_replicate_zero, hzero, Nat.zero_mul,
      Nat.zero_mul, Nat.zero_add, Nat.zero_add, List.length_append, List.length_replicate]
    congr 2
    omega
  case isFalse hpower =>
    dsimp only
    generalize hcount : power.toNat + 1 = count
    have hfront := leadingDigits_take hdigits hne hfirst count (by omega)
    by_cases hshort : count < digits.length
    · -- The point stands between two of the digits.
      have hdrop : digits.drop count ≠ [] := by
        rw [Ne, List.drop_eq_nil_iff]
        omega
      refine ⟨_, digits.drop count, by rw [if_neg (by simpa using hdrop)], hfront,
        fun c hc => hdigits c (List.mem_of_mem_drop hc), hdrop, ?_⟩
      have hpad : count - digits.length = 0 := by omega
      rw [hpad, List.replicate_zero, List.append_nil, List.take_append_drop, List.length_drop]
      congr 2
      omega
    · -- Zeros fill the places up to the point, and one more stands behind it.
      have hdrop : digits.drop count = [] := List.drop_eq_nil_iff.2 (by omega)
      refine ⟨_, ['0'], by rw [if_pos (by simp [hdrop])], hfront,
        List.forall_mem_singleton.2 rfl, by decide, ?_⟩
      have hzeros : List.replicate (count - digits.length) '0' ++ ['0'] =
          List.replicate (count - digits.length + 1) '0' := List.replicate_succ'.symm
      rw [List.take_of_length_le (by omega), List.append_assoc, hzeros, natOfDigits_append,
        natOfDigits_replicate_zero, List.length_replicate, Nat.add_zero, Decimal.value_mk_mul_pow]
      congr 2
      simp only [List.length_singleton]
      omega

/-- Digits with the decimal point at its place spell the number they stand for. -/
theorem spells_writePositional [FloatFormat] :
    ∃ n : Numeral, n.negative = negative ∧
      n.decimal.value = Decimal.value ⟨natOfDigits digits, power + 1 - digits.length⟩ ∧
      Spells (writePositional digits power) n := by
  obtain ⟨front, fraction, htext, hfront, hfraction, hfne, hvalue⟩ :=
    writePositional_eq power hdigits hne hfirst
  refine ⟨⟨negative, front, fraction, 0⟩, rfl, ?_, htext ▸ spells_point negative hfront hfraction hfne⟩
  rw [Numeral.decimal, zero_sub, hvalue]

omit hfirst in
/-- Digits with a power of ten spell the number they stand for. -/
theorem spells_writeScientific [FloatFormat] :
    ∃ n : Numeral, n.negative = negative ∧
      n.decimal = ⟨natOfDigits digits, power + 1 - digits.length⟩ ∧
      Spells (writeScientific digits power) n := by
  obtain ⟨c, fraction, rfl⟩ := List.exists_cons_of_ne_nil hne
  have hfront : LeadingDigits [c] := by
    refine ⟨fun d hd => hdigits d (by simp_all), List.cons_ne_nil _ _, ?_⟩
    intro d ds h
    cases h
  have hexponent : power - (fraction.length : Int) = power + 1 - (c :: fraction).length := by
    simp only [List.length_cons]
    omega
  have hstarts := hdigits c List.mem_cons_self
  refine ⟨⟨negative, [c], fraction, power⟩, rfl, ?_, ⟨c, _, rfl, hstarts⟩, fun rest hrest => ?_⟩
  · rw [Numeral.decimal, hexponent]
    rfl
  · obtain ⟨place, hplace⟩ := readExponent_signed negative [c] fraction power hrest
    refine ⟨place, hplace ▸ ?_⟩
    by_cases hfraction : fraction = []
    · subst hfraction
      exact readNumber_exponent hfront _
    · have htext : writeScientific (c :: fraction) power ++ rest = [c] ++ '.' :: (fraction ++ 'e' ::
          (if power < 0 then '-' else '+') :: (Nat.toDigits 10 power.natAbs ++ rest)) := by
        simp [writeScientific, hfraction]
      rw [htext, readNumber_point hfront,
        readFraction_exponent (fun d hd => hdigits d (List.mem_cons_of_mem _ hd)) hfraction]

end Writing

def signed (negative : Bool) (text : List Char) : List Char :=
  if negative then '-' :: text else text

theorem signed_append (negative : Bool) (text rest : List Char) :
    signed negative text ++ rest = signed negative (text ++ rest) := by
  cases negative <;> rfl

/-- A decimal is given back by its digits and its magnitude. -/
theorem ofDigits_magnitude (d : Decimal) :
    (⟨natOfDigits (Nat.toDigits 10 d.digits),
      d.magnitude - 1 + 1 - (Nat.toDigits 10 d.digits).length⟩ : Decimal) = d := by
  have hexponent : d.magnitude - 1 + 1 - (Nat.toDigits 10 d.digits).length = d.exponent := by
    unfold Decimal.magnitude
    omega
  rw [natOfDigits_toDigits, hexponent]

/-- The text of a decimal is a numeral of the same value. -/
theorem spells_writeUnsigned [FloatFormat] (layout : DecimalLayout) (negative : Bool)
    (d : Decimal) :
    ∃ n : Numeral, n.negative = negative ∧ n.decimal.value = d.value ∧
      Spells (d.writeUnsigned layout) n := by
  have hvalue := ofDigits_magnitude d
  unfold Decimal.writeUnsigned
  dsimp only
  split_ifs with hzero hlayout
  · refine ⟨⟨negative, ['0'], ['0'], 0⟩, rfl, ?_,
      spells_point negative leadingDigits_zero (List.forall_mem_singleton.2 rfl) (by decide)⟩
    rw [Decimal.value_eq_zero_iff.2 hzero]
    exact Decimal.value_eq_zero_iff.2 rfl
  · have hfirst := head?_toDigits_ne_zero (Nat.pos_of_ne_zero hzero)
    obtain ⟨n, hsign, hn, hspells⟩ := spells_writePositional negative (d.magnitude - 1)
      (toDigits_isDigit _) Nat.toDigits_ne_nil hfirst
    exact ⟨n, hsign, hn.trans (congrArg Decimal.value hvalue), hspells⟩
  · obtain ⟨n, hsign, hn, hspells⟩ := spells_writeScientific negative (d.magnitude - 1)
      (toDigits_isDigit d.digits) Nat.toDigits_ne_nil
    exact ⟨n, hsign, congrArg Decimal.value (hn.trans hvalue), hspells⟩

theorem floatOf_eq [FloatFormat] {n : Numeral} {x : Binary64} (h : FloatFormat.read n = some x)
    (place rest : List Char) : floatOf n place rest = .ok (.float x, rest) := by
  unfold floatOf
  rw [h]

def InRange (n : Int) : Prop :=
  -9223372036854775808 ≤ n ∧ n < 18446744073709551616

/-- The text of an integer of 64 bits, signed or not, is read as that integer. -/
theorem readNumber_intChars [FloatFormat] {n : Int} (h : InRange n) :
    ∃ negative text, intChars n = signed negative text ∧
      ∀ rest, EndsValue rest → readNumber negative (text ++ rest) = .ok (.integer n, rest) := by
  refine ⟨decide (n < 0), Nat.toDigits 10 n.natAbs, ?_, ?_⟩
  · unfold intChars signed
    simp only [decide_eq_true_eq]
  · intro rest hrest
    obtain ⟨hlow, hhigh⟩ := h
    rw [readNumber_integer (leadingDigits_toDigits _) hrest]
    unfold integerOf
    rw [natOfDigits_toDigits]
    by_cases hn : n < 0
    · have hback : -(n.natAbs : Int) = n := by omega
      rw [if_pos (decide_eq_true hn), if_pos (by omega), hback]
    · have hback : (n.natAbs : Int) = n := by omega
      rw [if_neg (by simpa using hn), if_pos (by omega), hback]

/-- Every number behind its sign begins with a digit. -/
theorem isDigit_of_readNumber [FloatFormat] {negative : Bool} {cs : List Char}
    {result : Json × List Char}
    (h : readNumber negative cs = .ok result) : ∃ c rest, cs = c :: rest ∧ c.isDigit = true := by
  cases cs with
  | nil => cases h
  | cons c rest =>
    refine ⟨c, rest, rfl, ?_⟩
    by_contra hc
    unfold readNumber at h
    rw [List.takeWhile_cons_of_neg hc, List.dropWhile_cons_of_neg hc] at h
    cases h

end Json

end PlanAudit
