/-! The order of texts by their code points, which is also the order of their UTF-8 bytes. -/
namespace PlanAudit.Text

def charsBefore : List Char → List Char → Bool
  | _, [] => false
  | [], _ :: _ => true
  | a :: as, b :: bs => a.toNat < b.toNat || (a == b && charsBefore as bs)

/-- A text comes before another one. -/
def before (a b : String) : Bool :=
  charsBefore a.toList b.toList

theorem charsBefore_irrefl (cs : List Char) : charsBefore cs cs = false := by
  induction cs with
  | nil => rfl
  | cons c cs ih => simp [charsBefore, ih]

theorem charsBefore_trans {as bs cs : List Char} (hab : charsBefore as bs = true)
    (hbc : charsBefore bs cs = true) : charsBefore as cs = true := by
  induction as generalizing bs cs with
  | nil => cases bs <;> cases cs <;> simp_all [charsBefore]
  | cons a as ih =>
    cases bs with
    | nil => simp [charsBefore] at hab
    | cons b bs =>
      cases cs with
      | nil => simp [charsBefore] at hbc
      | cons c cs =>
        simp only [charsBefore, Bool.or_eq_true, decide_eq_true_eq, Bool.and_eq_true,
          beq_iff_eq] at hab hbc ⊢
        rcases hab with hab | ⟨rfl, hab⟩
        · rcases hbc with hbc | ⟨rfl, _⟩
          · exact .inl (Nat.lt_trans hab hbc)
          · exact .inl hab
        · rcases hbc with hbc | ⟨rfl, hbc⟩
          · exact .inl hbc
          · exact .inr ⟨rfl, ih hab hbc⟩

theorem charsBefore_total {as bs : List Char} (hab : charsBefore as bs = false)
    (hba : charsBefore bs as = false) : as = bs := by
  induction as generalizing bs with
  | nil => cases bs <;> simp_all [charsBefore]
  | cons a as ih =>
    cases bs with
    | nil => simp [charsBefore] at hba
    | cons b bs =>
      simp only [charsBefore, Bool.or_eq_false_iff, decide_eq_false_iff_not, Nat.not_lt] at hab hba
      have hcode : a = b := Char.toNat_inj.1 (Nat.le_antisymm hba.1 hab.1)
      subst hcode
      simp only [beq_self_eq_true, Bool.true_and] at hab hba
      rw [ih hab.2 hba.2]

theorem before_irrefl (a : String) : before a a = false :=
  charsBefore_irrefl a.toList

theorem before_trans {a b c : String} (hab : before a b = true) (hbc : before b c = true) :
    before a c = true :=
  charsBefore_trans hab hbc

theorem before_total {a b : String} (hab : before a b = false) (hba : before b a = false) : a = b :=
  String.toList_inj.1 (charsBefore_total hab hba)

end PlanAudit.Text
