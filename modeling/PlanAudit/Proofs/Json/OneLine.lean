import PlanAudit.Proofs.Json.NumberChars

/-! JSON text without blanks stands on one line: it has no control characters. -/
namespace PlanAudit

def Printable (cs : List Char) : Prop :=
  ∀ c ∈ cs, 32 ≤ c.toNat

instance (cs : List Char) : Decidable (Printable cs) :=
  decidable_of_iff (cs.all (fun c => 32 ≤ c.toNat) = true)
    (by simp only [Printable, List.all_eq_true, decide_eq_true_eq])

private theorem printable_append {cs ds : List Char} :
    Printable (cs ++ ds) ↔ Printable cs ∧ Printable ds :=
  List.forall_mem_append

private theorem printable_cons {c : Char} {cs : List Char} :
    Printable (c :: cs) ↔ 32 ≤ c.toNat ∧ Printable cs :=
  List.forall_mem_cons

theorem Numeric.printable {cs : List Char} (h : Numeric cs) : Printable cs := by
  have hall : Printable numberChars := by decide
  exact fun c hc => hall c (h c hc)

namespace Json

private theorem printable_escape (c : Char) : Printable (escape c) := by
  unfold escape
  split
  case h_8 =>
    split
    case isTrue hcontrol =>
      have hdigits : ∀ n : Fin 32, Printable (['\\', 'u', '0', '0'] ++ hexPair n) := by decide
      exact hdigits ⟨c.toNat, hcontrol⟩
    case isFalse hplain => exact printable_cons.2 ⟨Nat.not_lt.1 hplain, fun _ hc => nomatch hc⟩
  all_goals decide

theorem printable_stringChars (s : String) : Printable (stringChars s) := by
  have hbody : Printable (s.toList.flatMap escape) := by
    intro c hc
    obtain ⟨x, _, hx⟩ := List.mem_flatMap.1 hc
    exact printable_escape x c hx
  exact printable_append.2 ⟨printable_cons.2 ⟨by decide, hbody⟩, by decide⟩

mutual

theorem printable_chars : (value : Json) → Printable value.chars
  | null | bool true | bool false | array [] | object [] => by decide
  | integer n => (numeric_intChars n).printable
  | float x => (numeric_write floatLayout x.negative _).printable
  | string s => printable_stringChars s
  | array (item :: items) =>
    printable_append.2
      ⟨printable_cons.2 ⟨by decide, printable_chars item⟩, printable_itemsTail items⟩
  | object ((key, value) :: members) => by
    simp only [chars, printable_append, printable_cons]
    exact ⟨⟨⟨by decide, printable_stringChars key⟩, by decide, printable_chars value⟩,
      printable_membersTail members⟩

private theorem printable_itemsTail : (items : List Json) → Printable (itemsTail items)
  | [] => by decide
  | item :: items =>
    printable_append.2
      ⟨printable_cons.2 ⟨by decide, printable_chars item⟩, printable_itemsTail items⟩

private theorem printable_membersTail :
    (members : List (String × Json)) → Printable (membersTail members)
  | [] => by decide
  | (key, value) :: members => by
    simp only [membersTail, printable_append, printable_cons]
    exact ⟨⟨⟨by decide, printable_stringChars key⟩, by decide, printable_chars value⟩,
      printable_membersTail members⟩

end

end Json

end PlanAudit
