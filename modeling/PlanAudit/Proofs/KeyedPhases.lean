import PlanAudit.Proofs.ByteOrder
import PlanAudit.Proofs.PhaseForms

/-! A section with a key for each phase lists all its phases: first those with a number, by number,
then the others, by the bytes of their keys. -/
namespace PlanAudit

/-- The text is a number in decimal digits. A plus sign may stand before them, and so may zeros. -/
def Text.Spells (text : List Char) (n : Nat) : Prop :=
  ∃ digits, (text = digits ∨ text = '+' :: digits) ∧ digits ≠ [] ∧
    (∀ c ∈ digits, c.isDigit = true) ∧ Nat.ofDigitChars 10 digits 0 = n

def PhaseNumber (key : String) (n : Nat) : Prop :=
  ∃ suffix, key.toList = "phase_".toList ++ suffix ∧ Text.Spells suffix n

/-- The number is small enough to order phases by it. -/
def IsNumbered (key : String) : Prop :=
  ∃ n < 2 ^ 64 - 1, PhaseNumber key n

/-- The order of the phases: `numbered` first, then `others`. Equal numbers can be written in
different ways. -/
structure InPhaseOrder (numbered others : List (String × Json)) : Prop where
  isNumbered : ∀ phase ∈ numbered, IsNumbered phase.1
  not_isNumbered : ∀ phase ∈ others, ¬ IsNumbered phase.1
  byNumber : numbered.Pairwise fun a b => ∀ n m, PhaseNumber a.1 n → PhaseNumber b.1 m →
    n < m ∨ n = m ∧ Text.bytes a.1 < Text.bytes b.1
  byKey : others.Pairwise fun a b => Text.bytes a.1 < Text.bytes b.1

theorem Text.Spells.unique {text : List Char} {n m : Nat} (hn : Spells text n)
    (hm : Spells text m) : n = m := by
  have hplus : ∀ digits : List Char, ¬ ∀ c ∈ '+' :: digits, c.isDigit = true := by
    intro digits hdigits
    cases hdigits '+' List.mem_cons_self
  obtain ⟨front, hfront, -, hfrontDigits, rfl⟩ := hn
  obtain ⟨back, hback, -, hbackDigits, rfl⟩ := hm
  rcases hfront with rfl | rfl <;> rcases hback with heq | heq
  · rw [heq]
  · exact absurd (heq ▸ hfrontDigits) (hplus _)
  · exact absurd (heq ▸ hbackDigits) (hplus _)
  · rw [List.tail_eq_of_cons_eq heq]

theorem PhaseNumber.unique {key : String} {n m : Nat} (hn : PhaseNumber key n)
    (hm : PhaseNumber key m) : n = m := by
  obtain ⟨suffix, hkey, hspells⟩ := hn
  obtain ⟨_, hkey', hspells'⟩ := hm
  obtain rfl := List.append_cancel_left (hkey.symm.trans hkey')
  exact hspells.unique hspells'

theorem natOfText?_eq_some_iff {text : List Char} {n : Nat} :
    natOfText? text = some n ↔ Text.Spells text n ∧ n < wordLimit := by
  have hread : ∀ digits : List Char,
      (if digits.isEmpty || !digits.all Char.isDigit then none else
        let n := digits.foldl (fun n c => 10 * n + (c.toNat - '0'.toNat)) 0
        if n < wordLimit then some n else none) = some n ↔
      digits ≠ [] ∧ (∀ c ∈ digits, c.isDigit = true) ∧ Nat.ofDigitChars 10 digits 0 = n ∧
        n < wordLimit := by
    intro digits
    simp only [← Nat.ofDigitChars_eq_foldl, Option.ite_none_left_eq_some,
      Option.ite_none_right_eq_some, Bool.or_eq_true, List.isEmpty_iff, Bool.not_eq_true',
      List.all_eq_false, not_or, not_exists, not_and, not_not, and_assoc]
    grind
  unfold natOfText?
  split
  case h_1 rest =>
    rw [hread]
    constructor
    · rintro ⟨hne, hdigits, hvalue, hn⟩
      exact ⟨⟨rest, .inr rfl, hne, hdigits, hvalue⟩, hn⟩
    · rintro ⟨⟨digits, rfl | heq, hne, hdigits, hvalue⟩, hn⟩
      · cases hdigits '+' List.mem_cons_self
      · obtain rfl := List.tail_eq_of_cons_eq heq
        exact ⟨hne, hdigits, hvalue, hn⟩
  case h_2 hplus =>
    rw [hread]
    constructor
    · rintro ⟨hne, hdigits, hvalue, hn⟩
      exact ⟨⟨text, .inl rfl, hne, hdigits, hvalue⟩, hn⟩
    · rintro ⟨⟨digits, rfl | rfl, hne, hdigits, hvalue⟩, hn⟩
      · exact ⟨hne, hdigits, hvalue, hn⟩
      · exact absurd rfl (hplus digits)

theorem phaseSuffix?_eq_some_iff {key : String} {suffix : List Char} :
    phaseSuffix? key = some suffix ↔ key.toList = "phase_".toList ++ suffix := by
  rw [phaseSuffix?, List.isPrefixOf?_eq_some_iff_append_eq, eq_comm]

theorem bind_phaseSuffix?_eq_some_iff {key : String} {n : Nat} :
    (phaseSuffix? key).bind natOfText? = some n ↔ PhaseNumber key n ∧ n < wordLimit := by
  simp only [Option.bind_eq_some_iff, phaseSuffix?_eq_some_iff, natOfText?_eq_some_iff, ← and_assoc,
    exists_and_right, PhaseNumber]

/-- A number orders the phases by itself unless it is the rank of those with none. -/
theorem phaseRank_eq_iff {key : String} {n : Nat} (hn : n < 2 ^ 64 - 1) :
    phaseRank key = n ↔ PhaseNumber key n := by
  have hlimit : wordLimit = 2 ^ 64 := rfl
  have hiff : _ ↔ PhaseNumber key n ∧ n < wordLimit := bind_phaseSuffix?_eq_some_iff
  rw [and_iff_left (show n < wordLimit by omega)] at hiff
  rw [phaseRank, ← hiff]
  cases (phaseSuffix? key).bind natOfText? with
  | none =>
    rw [Option.getD_none]
    constructor
    · omega
    · rintro ⟨⟩
  | some m => rw [Option.getD_some, Option.some_inj]

theorem phaseRank_le (key : String) : phaseRank key ≤ 2 ^ 64 - 1 := by
  have hlimit : wordLimit = 2 ^ 64 := rfl
  rw [phaseRank]
  cases hnumber : (phaseSuffix? key).bind natOfText? with
  | none =>
    rw [Option.getD_none]
    omega
  | some n =>
    have hn := (bind_phaseSuffix?_eq_some_iff.1 hnumber).2
    rw [Option.getD_some]
    omega

theorem isNumbered_iff {key : String} : IsNumbered key ↔ phaseRank key < 2 ^ 64 - 1 := by
  constructor
  · rintro ⟨n, hn, hnumber⟩
    rwa [(phaseRank_eq_iff hn).2 hnumber]
  · exact fun hlt => ⟨_, hlt, (phaseRank_eq_iff hlt).1 rfl⟩

/-- The order of phases is strict where no key is repeated. -/
theorem pairwise_rank_or_bytes {phases : List (String × Json)} (hkeys : (phases.map Prod.fst).Nodup)
    (hsorted : phases.Pairwise fun a b => phaseLe a b = true) :
    phases.Pairwise fun a b => phaseRank a.1 < phaseRank b.1 ∨
      phaseRank a.1 = phaseRank b.1 ∧ Text.bytes a.1 < Text.bytes b.1 := by
  rw [List.Nodup, List.pairwise_map] at hkeys
  refine (hsorted.and hkeys).imp fun {a b} ⟨hle, hne⟩ => ?_
  rcases phaseLe_iff.1 hle with hlt | ⟨heq, hafter⟩
  · exact .inl hlt
  · refine .inr ⟨heq, (Text.before_iff_bytes_lt _ _).1 ?_⟩
    by_contra hbefore
    exact hne (Text.before_total (Bool.not_eq_true _ ▸ hbefore) hafter)

private theorem exists_append_at_rank (rank : Nat) {phases : List (String × Json)}
    (hsorted : phases.Pairwise fun a b => phaseRank a.1 ≤ phaseRank b.1) :
    ∃ front back, phases = front ++ back ∧ (∀ phase ∈ front, phaseRank phase.1 < rank) ∧
      ∀ phase ∈ back, rank ≤ phaseRank phase.1 := by
  induction phases with
  | nil => exact ⟨[], [], rfl, nofun, nofun⟩
  | cons phase phases ih =>
    rw [List.pairwise_cons] at hsorted
    obtain ⟨front, back, rfl, hfront, hback⟩ := ih hsorted.2
    rcases Nat.lt_or_ge (phaseRank phase.1) rank with hlt | hge
    · exact ⟨phase :: front, back, rfl, List.forall_mem_cons.2 ⟨hlt, hfront⟩, hback⟩
    · refine ⟨[], phase :: (front ++ back), rfl, nofun, List.forall_mem_cons.2 ⟨hge, ?_⟩⟩
      exact fun other hother => Nat.le_trans hge (hsorted.1 other hother)

/-- Phases in their order are split where the numbers end. -/
theorem exists_inPhaseOrder {phases : List (String × Json)} (hkeys : (phases.map Prod.fst).Nodup)
    (hsorted : phases.Pairwise fun a b => phaseLe a b = true) :
    ∃ numbered others, phases = numbered ++ others ∧ InPhaseOrder numbered others := by
  have hstrict := pairwise_rank_or_bytes hkeys hsorted
  obtain ⟨numbered, others, rfl, hnumbered, hothers⟩ :=
    exists_append_at_rank (2 ^ 64 - 1) (hstrict.imp fun h => by omega)
  rw [List.pairwise_append] at hstrict
  refine ⟨numbered, others, rfl, fun phase hphase => isNumbered_iff.2 (hnumbered phase hphase),
    fun phase hphase => ?_, ?_, ?_⟩
  · rw [isNumbered_iff]
    exact Nat.not_lt.2 (hothers phase hphase)
  · refine hstrict.1.imp_of_mem fun {a b} ha hb h n m hn hm => ?_
    have hrank : ∀ {phase k}, phase ∈ numbered → PhaseNumber phase.1 k → phaseRank phase.1 = k :=
      fun hphase hk => ((phaseRank_eq_iff (hnumbered _ hphase)).1 rfl).unique hk
    rwa [hrank ha hn, hrank hb hm] at h
  · refine hstrict.2.1.imp_of_mem fun {a b} ha hb h => ?_
    have hlast := phaseRank_le b.1
    have hfirst := hothers a ha
    exact (h.resolve_left (by omega)).2

theorem Json.Members.get?_eq_some_iff {members : Members} (hkeys : (members.map Prod.fst).Nodup)
    {key : String} {value : Json} : members.get? key = some value ↔ (key, value) ∈ members := by
  unfold get?
  induction members with
  | nil => simp
  | cons member members ih =>
    rw [List.map_cons, List.nodup_cons] at hkeys
    rw [lookup_cons_eq_ite, List.mem_cons, ← ih hkeys.2, Prod.ext_iff]
    split
    case isTrue heq =>
      have habsent : members.lookup key ≠ some value := by
        rw [ne_eq, ih hkeys.2, heq]
        exact fun hmem => hkeys.1 (List.mem_map.2 ⟨_, hmem, rfl⟩)
      rw [Option.some_inj, or_iff_left habsent, and_iff_right heq, eq_comm]
    case isFalse hne => rw [or_iff_right fun h => hne h.1]

theorem Json.Members.get?_eq_of_perm {members reordered : Members}
    (hkeys : (members.map Prod.fst).Nodup) (hperm : reordered.Perm members) (key : String) :
    reordered.get? key = members.get? key := by
  have hkeys' := (hperm.map Prod.fst).nodup_iff.2 hkeys
  ext value
  rw [get?_eq_some_iff hkeys', get?_eq_some_iff hkeys, hperm.mem_iff]

namespace PhaseLayout

section DistinctKeys

variable {members : Json.Members} (hkeys : (members.map Prod.fst).Nodup)

theorem mem_keyedPhases {key : String} {value : Json} :
    (key, value) ∈ keyedPhases members ↔
      (key, value) ∈ members ∧ "phase_".toList <+: key.toList ∧
        ∃ fields, value = .object fields := by
  have hobject : value.isObject = true ↔ ∃ fields, value = .object fields := by
    cases value <;> simp [Json.isObject]
  rw [keyedPhases, List.mem_mergeSort, List.mem_filter, Bool.and_eq_true, hobject, phaseSuffix?,
    List.isSome_isPrefixOf?_eq_isPrefixOf, List.isPrefixOf_iff_prefix]

theorem keyedPhases_pairwise : (keyedPhases members).Pairwise fun a b => phaseLe a b = true :=
  List.pairwise_mergeSort phaseLe_trans phaseLe_total _

theorem ofMembers_eq (harray : ∀ phases, members.get? "phases" ≠ some (.array phases)) :
    ofMembers members =
      if keyedPhases members = [] then absent else keyed (keyedPhases members) := by
  rw [ofMembers, Json.bind_array?_eq_none_iff.2 harray]
  cases keyedPhases members <;> rfl

include hkeys

theorem keyedPhases_keys_nodup : ((keyedPhases members).map Prod.fst).Nodup := by
  rw [keyedPhases, ((List.mergeSort_perm _ _).map Prod.fst).nodup_iff]
  exact (List.filter_sublist.map _).nodup hkeys

theorem keyedPhases_eq_of_perm {reordered : Json.Members} (hperm : reordered.Perm members) :
    keyedPhases reordered = keyedPhases members :=
  eq_of_perm_of_phaseLe (keyedPhases_keys_nodup hkeys) keyedPhases_pairwise keyedPhases_pairwise
    (((List.mergeSort_perm _ _).trans (hperm.filter _)).trans (List.mergeSort_perm _ _).symm)

theorem ofMembers_eq_of_perm {reordered : Json.Members} (hperm : reordered.Perm members) :
    ofMembers reordered = ofMembers members := by
  rw [ofMembers, ofMembers, Json.Members.get?_eq_of_perm hkeys hperm,
    keyedPhases_eq_of_perm hkeys hperm]

end DistinctKeys

end PhaseLayout

/-- Without an array of phases, the phases are the members that are objects and whose keys start
with `phase_`. Each is listed once and in its place, whatever the order of the members is. -/
theorem Plan.phaseLayout_lists_phases (plan : Plan) {members : Json.Members}
    (hsection : plan.section? phasesKey = some (.object members))
    (hkeys : (members.map Prod.fst).Nodup)
    (harray : ∀ phases, members.get? "phases" ≠ some (.array phases)) :
    (∃ numbered others, InPhaseOrder numbered others ∧ (numbered ++ others).Nodup ∧
      (∀ key value, (key, value) ∈ numbered ++ others ↔
        (key, value) ∈ members ∧ "phase_".toList <+: key.toList ∧
          ∃ fields, value = .object fields) ∧
      (numbered ++ others = [] → plan.phaseLayout = .absent) ∧
      (numbered ++ others ≠ [] → plan.phaseLayout = .keyed (numbered ++ others))) ∧
    ∀ (reordered : Json.Members) (other : Plan), reordered.Perm members →
      other.section? phasesKey = some (.object reordered) →
      other.phaseLayout = plan.phaseLayout := by
  have hlayout : plan.phaseLayout = .ofMembers members := by
    rw [phaseLayout, hsection, PhaseLayout.ofSection]
  refine ⟨?_, fun reordered other hperm hother => ?_⟩
  · have hphases := PhaseLayout.keyedPhases_keys_nodup hkeys
    obtain ⟨numbered, others, happend, horder⟩ :=
      exists_inPhaseOrder hphases PhaseLayout.keyedPhases_pairwise
    rw [PhaseLayout.ofMembers_eq harray, happend] at hlayout
    refine ⟨numbered, others, horder, ?_, fun key value => ?_, fun hnone => ?_, fun hsome => ?_⟩
    · rw [← happend]
      exact hphases.of_map
    · rw [← happend, PhaseLayout.mem_keyedPhases]
    · rw [hlayout, if_pos hnone]
    · rw [hlayout, if_neg hsome]
  · rw [phaseLayout, hother, PhaseLayout.ofSection, hlayout,
      PhaseLayout.ofMembers_eq_of_perm hkeys hperm]

def emptyPhases (keys : List String) : Json.Members :=
  keys.map fun key => (key, .object [])

/-- Members in no order. A number is written in two ways, and another is too large. -/
def scatteredMembers : Json.Members :=
  emptyPhases ["phase_x", "phase_18446744073709551615", "phase_10", "phase_1", "phase_01",
    "phase_+2", "notes"]

def keysInOrder : List String :=
  ["phase_01", "phase_1", "phase_+2", "phase_10", "phase_18446744073709551615", "phase_x"]

private theorem keyedPhases_scatteredMembers :
    PhaseLayout.keyedPhases scatteredMembers = emptyPhases keysInOrder := by
  have hphases : (scatteredMembers.filter fun entry =>
      (phaseSuffix? entry.1).isSome && entry.2.isObject) = emptyPhases ["phase_x",
        "phase_18446744073709551615", "phase_10", "phase_1", "phase_01", "phase_+2"] := rfl
  refine eq_of_perm_of_phaseLe (by decide) PhaseLayout.keyedPhases_pairwise (by decide) ?_
  refine (List.mergeSort_perm _ _).trans ?_
  rw [hphases]
  exact List.Perm.map _ (by decide)

theorem phaseLayout_scatteredMembers :
    let plan (members : Json.Members) : Plan :=
      ⟨[(sectionsKey, .object [(phasesKey, .object members)])]⟩
    (scatteredMembers.map Prod.fst).Nodup ∧
    (∀ phases, scatteredMembers.get? "phases" ≠ some (.array phases)) ∧
    (plan scatteredMembers).phaseLayout = .keyed (emptyPhases keysInOrder) ∧
    (plan scatteredMembers.reverse).phaseLayout = .keyed (emptyPhases keysInOrder) := by
  intro plan
  have hkeys : (scatteredMembers.map Prod.fst).Nodup := by decide
  have harray : ∀ phases, scatteredMembers.get? "phases" ≠ some (.array phases) := by
    have hnone : scatteredMembers.get? "phases" = none := by decide
    simp [hnone]
  have hlayout : (plan scatteredMembers).phaseLayout = .keyed (emptyPhases keysInOrder) := by
    show PhaseLayout.ofMembers scatteredMembers = _
    rw [PhaseLayout.ofMembers_eq harray, keyedPhases_scatteredMembers]
    rfl
  refine ⟨hkeys, harray, hlayout, ?_⟩
  rw [← hlayout]
  exact (Plan.phaseLayout_lists_phases _ rfl hkeys harray).2 _ _ (List.reverse_perm _) rfl

end PlanAudit
