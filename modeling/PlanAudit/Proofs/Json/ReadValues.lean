import PlanAudit.Proofs.Json.ValueText
import PlanAudit.Proofs.SortedKeys
import PlanAudit.Text.Blank

/-! The values that reading gives. Their integers have 64 bits, their brackets are not too deep, and the
members of their objects stand in the order of their keys; so they are read again from their text. -/
namespace PlanAudit

namespace Json

structure Readable [FloatFormat] (depth : Nat) (value : Json) : Prop where
  fits : Fits depth value
  sorted_eq : value.sorted = value

theorem sortedItems_eq {items : List Json} (h : ∀ item ∈ items, item.sorted = item) :
    sortedItems items = items := by
  induction items with
  | nil => rfl
  | cons item items ih =>
    obtain ⟨hitem, hitems⟩ := List.forall_mem_cons.1 h
    rw [sortedItems, hitem, ih hitems]

theorem sortedMembers_eq {members : Members} (h : ∀ member ∈ members, member.2.sorted = member.2) :
    sortedMembers members = members := by
  induction members with
  | nil => rfl
  | cons member members ih =>
    obtain ⟨key, value⟩ := member
    obtain ⟨hmember, hmembers⟩ := List.forall_mem_cons.1 h
    rw [sortedMembers, ih hmembers]
    congr 2

variable [FloatFormat]

theorem readable_array {depth : Nat} {items : List Json} (h : ∀ item ∈ items, Readable depth item) :
    Readable (depth + 1) (.array items) := by
  constructor
  · exact .array fun item hitem => (h item hitem).fits
  · rw [sorted, sortedItems_eq fun item hitem => (h item hitem).sorted_eq]

/-- The members are put in the order of their keys. -/
theorem readable_object {depth : Nat} {members : Members}
    (h : ∀ member ∈ members, Readable depth member.2) :
    Readable (depth + 1) (.object (sortKeys members)) := by
  have hsorted : ∀ member ∈ sortKeys members, Readable depth member.2 :=
    fun member hmember => h member (mem_of_mem_sortKeys hmember)
  constructor
  · exact .object fun member hmember => (hsorted member hmember).fits
  · rw [sorted, sortedMembers_eq fun member hmember => (hsorted member hmember).sorted_eq,
      (keysAscend_sortKeys members).sortKeys_eq]

section Numbers

variable (hfloats : ∀ x : Binary64, FloatReadsBack x) {depth : Nat} {negative : Bool}
  {result : Json × List Char}
include hfloats

private theorem readable_of_floatOf {n : Numeral} {place rest : List Char}
    (h : floatOf n place rest = .ok result) : Readable depth result.1 := by
  unfold floatOf at h
  split at h
  · cases h
    exact ⟨.float (hfloats _), rfl⟩
  · cases h

private theorem readable_of_integerOf {digits rest : List Char}
    (h : integerOf negative digits rest = .ok result) : Readable depth result.1 := by
  unfold integerOf at h
  dsimp only at h
  split_ifs at h with _ hrange hrange
  · cases h
    exact ⟨.integer ⟨by omega, by omega⟩, rfl⟩
  · exact readable_of_floatOf hfloats h
  · cases h
    exact ⟨.integer ⟨by omega, by omega⟩, rfl⟩
  · exact readable_of_floatOf hfloats h

private theorem readable_of_readExponent {whole fraction cs : List Char}
    (h : readExponent negative whole fraction cs = .ok result) : Readable depth result.1 := by
  unfold readExponent at h
  dsimp only at h
  split at h
  · cases h
  · split at h
    · exact readable_of_floatOf hfloats h
    · cases h

private theorem readable_of_readFraction {digits cs : List Char}
    (h : readFraction negative digits cs = .ok result) : Readable depth result.1 := by
  unfold readFraction at h
  dsimp only at h
  split at h
  case h_1 => cases h
  case h_2 => cases h
  case h_3 => exact readable_of_readExponent hfloats h
  case h_4 => exact readable_of_readExponent hfloats h
  case h_5 => exact readable_of_floatOf hfloats h

theorem readable_of_readNumber {cs : List Char}
    (h : readNumber negative cs = .ok result) : Readable depth result.1 := by
  unfold readNumber at h
  dsimp only at h
  split at h
  case h_1 => cases h
  case h_2 => cases h
  case h_3 => cases h
  case h_4 => exact readable_of_readFraction hfloats h
  case h_5 => exact readable_of_readExponent hfloats h
  case h_6 => exact readable_of_readExponent hfloats h
  case h_7 => exact readable_of_integerOf hfloats h

end Numbers

/-- Within that many steps only such values are read. -/
structure ReadsReadable (steps : Nat) : Prop where
  value : ∀ {depth cs result}, readValue steps depth cs = .ok result → Readable depth result.1
  items : ∀ {depth cs result}, readItems steps depth cs = .ok result →
    ∀ item ∈ result.1, Readable depth item
  member : ∀ {depth cs result}, readMember steps depth cs = .ok result →
    Readable depth result.1.2
  members : ∀ {depth cs result}, readMembers steps depth cs = .ok result →
    ∀ member ∈ result.1, Readable depth member.2

namespace ReadsReadable

variable {steps depth : Nat} {cs : List Char} (ih : ReadsReadable steps)
include ih

theorem value_succ (hfloats : ∀ x : Binary64, FloatReadsBack x) {result : Json × List Char}
    (h : readValue (steps + 1) depth cs = .ok result) : Readable depth result.1 := by
  rw [readValue] at h
  split at h
  case h_1 => cases h
  case h_2 =>
    obtain ⟨_, _, h⟩ := exists_of_bind_eq_ok h
    cases h
    exact ⟨.null, rfl⟩
  case h_3 =>
    obtain ⟨_, _, h⟩ := exists_of_bind_eq_ok h
    cases h
    exact ⟨.bool true, rfl⟩
  case h_4 =>
    obtain ⟨_, _, h⟩ := exists_of_bind_eq_ok h
    cases h
    exact ⟨.bool false, rfl⟩
  case h_5 =>
    obtain ⟨_, _, h⟩ := exists_of_bind_eq_ok h
    cases h
    exact ⟨.string _, rfl⟩
  case h_6 =>
    split at h
    · cases h
    · split at h
      · cases h
      · cases h
        exact readable_array (List.forall_mem_nil _)
      · obtain ⟨_, hitem, h⟩ := exists_of_bind_eq_ok h
        obtain ⟨_, hitems, h⟩ := exists_of_bind_eq_ok h
        cases h
        exact readable_array (List.forall_mem_cons.2 ⟨ih.value hitem, ih.items hitems⟩)
  case h_7 =>
    split at h
    · cases h
    · split at h
      · cases h
      · cases h
        show Readable _ (.object (sortKeys []))
        exact readable_object (List.forall_mem_nil _)
      · obtain ⟨_, hmember, h⟩ := exists_of_bind_eq_ok h
        obtain ⟨_, hmembers, h⟩ := exists_of_bind_eq_ok h
        cases h
        exact readable_object (List.forall_mem_cons.2 ⟨ih.member hmember, ih.members hmembers⟩)
      · cases h
  case h_8 => exact readable_of_readNumber hfloats h
  case h_9 =>
    split at h
    · exact readable_of_readNumber hfloats h
    · cases h

theorem items_succ {result : List Json × List Char}
    (h : readItems (steps + 1) depth cs = .ok result) : ∀ item ∈ result.1, Readable depth item := by
  rw [readItems] at h
  split at h
  case h_1 => cases h
  case h_2 =>
    cases h
    exact List.forall_mem_nil _
  case h_3 =>
    split at h
    · cases h
    · cases h
    · obtain ⟨_, hitem, h⟩ := exists_of_bind_eq_ok h
      obtain ⟨_, hitems, h⟩ := exists_of_bind_eq_ok h
      cases h
      exact List.forall_mem_cons.2 ⟨ih.value hitem, ih.items hitems⟩
  case h_4 => cases h

theorem member_succ {result : (String × Json) × List Char}
    (h : readMember (steps + 1) depth cs = .ok result) : Readable depth result.1.2 := by
  rw [readMember] at h
  obtain ⟨_, _, h⟩ := exists_of_bind_eq_ok h
  obtain ⟨_, _, h⟩ := exists_of_bind_eq_ok h
  obtain ⟨_, hvalue, h⟩ := exists_of_bind_eq_ok h
  cases h
  exact ih.value hvalue

theorem members_succ {result : Members × List Char}
    (h : readMembers (steps + 1) depth cs = .ok result) :
    ∀ member ∈ result.1, Readable depth member.2 := by
  rw [readMembers] at h
  split at h
  case h_1 => cases h
  case h_2 =>
    cases h
    exact List.forall_mem_nil _
  case h_3 =>
    split at h
    · cases h
    · obtain ⟨_, hmember, h⟩ := exists_of_bind_eq_ok h
      obtain ⟨_, hmembers, h⟩ := exists_of_bind_eq_ok h
      cases h
      exact List.forall_mem_cons.2 ⟨ih.member hmember, ih.members hmembers⟩
    · cases h
    · cases h
  case h_4 => cases h

end ReadsReadable

theorem readsReadable (hfloats : ∀ x : Binary64, FloatReadsBack x) (steps : Nat) :
    ReadsReadable steps := by
  induction steps with
  | zero =>
    constructor
    all_goals
      intro depth cs result h
      cases h
  | succ steps ih => exact ⟨ih.value_succ hfloats, ih.items_succ, ih.member_succ, ih.members_succ⟩

theorem exists_readValue_of_read {text : String} {value : Json} (h : read text = .ok value) :
    ∃ steps rest, readValue steps maxDepth text.toList = .ok (value, rest) := by
  have htext : readText text.toList = .ok value := mapError_eq_ok_iff.1 h
  unfold readText at htext
  obtain ⟨result, hvalue, hend⟩ := exists_of_bind_eq_ok htext
  dsimp only at hend
  split at hend
  · cases hend
    exact ⟨_, result.2, hvalue⟩
  · cases hend

theorem readable_of_read (hfloats : ∀ x : Binary64, FloatReadsBack x) {text : String} {value : Json}
    (h : read text = .ok value) : Readable maxDepth value := by
  obtain ⟨steps, rest, hvalue⟩ := exists_readValue_of_read h
  exact (readsReadable hfloats steps).value hvalue

/-- Every value that is read from a text is read again from its own text. -/
theorem read_compact_of_read (hfloats : ∀ x : Binary64, FloatReadsBack x) {text : String}
    {value : Json} (h : read text = .ok value) : read value.compact = .ok value := by
  have hreadable := readable_of_read hfloats h
  rw [read_compact hreadable.fits, hreadable.sorted_eq]

/-- A text that holds a value is not blank. -/
theorem exists_not_blank_of_read {text : String} {value : Json} (h : read text = .ok value) :
    ∃ c ∈ text.toList, Text.isBlank c = false := by
  obtain ⟨steps, rest, hvalue⟩ := exists_readValue_of_read h
  obtain ⟨c, cs, hcs, hstart, _⟩ := skipBlanks_of_readValue hvalue
  have hstarts : valueStarts.all (fun c => Text.isBlank c == false) = true := by decide
  refine ⟨c, ?_, beq_iff_eq.1 (List.all_eq_true.1 hstarts c hstart)⟩
  apply (List.dropWhile_suffix isBlank).mem
  show c ∈ skipBlanks text.toList
  rw [hcs]
  exact List.mem_cons_self

end Json

end PlanAudit
