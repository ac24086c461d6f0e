import PlanAudit.Proofs.Json.OneLine
import PlanAudit.Proofs.Json.ValueText
import PlanAudit.Proofs.SortedKeys
import PlanAudit.Report

/-! Reports as text. A report is taken out of its text again as it was, from the text on one line as from
the indented one. -/
namespace PlanAudit

namespace Json

private theorem asByte_toNat (n : UInt8) : asByte (.integer n.toNat) = .ok n := by
  have hn := n.toNat_lt
  have hrange : 0 ≤ (n.toNat : Int) ∧ (n.toNat : Int) ≤ 255 := by omega
  simp only [asByte, if_pos hrange, Int.toNat_natCast]
  rw [show n.toNat.toUInt8 = n from UInt8.ofNat_toNat]

section Decoding

variable {α : Type} {decode : Decoder α} {encode : α → Json}
  (h : ∀ a, decode (encode a).sorted = .ok a)
include h

/-- A list is taken out of an array, if each item is. -/
theorem asList_sorted (as : List α) : asList decode (array (as.map encode)).sorted = .ok as := by
  show (sortedItems (as.map encode)).mapM decode = .ok as
  induction as with
  | nil => rfl
  | cons a as ih =>
    rw [List.map_cons, sortedItems, List.mapM_cons, h a, ih]
    rfl

private theorem mapM_members (entries : List (String × α)) :
    (entries.map fun (key, a) => (key, (encode a).sorted)).mapM
      (fun (key, value) => do return (key, ← decode value)) = .ok entries := by
  induction entries with
  | nil => rfl
  | cons entry entries ih =>
    obtain ⟨key, a⟩ := entry
    rw [List.map_cons, List.mapM_cons, ih]
    dsimp only
    rw [h a]
    rfl

omit h in
private theorem sortedMembers_map (entries : List (String × α)) :
    sortedMembers (entries.map fun (key, a) => (key, encode a)) =
      entries.map fun (key, a) => (key, (encode a).sorted) := by
  induction entries with
  | nil => rfl
  | cons entry entries ih =>
    rw [List.map_cons, sortedMembers, ih]
    rfl

/-- A map is taken out of an object, if each value is. Its keys are in order already. -/
theorem asMap_sorted (m : SortedMap α) :
    asMap decode (object (m.entries.map fun (key, a) => (key, encode a))).sorted = .ok m := by
  obtain ⟨entries, hascend⟩ := m
  have hkeys : KeysAscend (entries.map fun (key, a) => (key, (encode a).sorted)) :=
    List.pairwise_map.2 hascend
  rw [sorted, sortedMembers_map, hkeys.sortKeys_eq]
  unfold asMap
  dsimp only
  rw [mapM_members h]
  show Except.ok (SortedMap.ofList entries) = _
  unfold SortedMap.ofList
  congr 2
  exact hascend.sortKeys_eq

end Decoding

end Json

theorem Verdict.ofJson_name (verdict : Verdict) : ofJson (.string verdict.name) = .ok verdict := by
  cases verdict <;> rfl

theorem Issue.sorted_toJson (issue : Issue) :
    issue.toJson.sorted = .object [
      ("issue", .string issue.message),
      ("section", .string issue.area),
      ("severity", .string issue.severity.name),
      ("suggestion", .string issue.suggestion)] := by
  simp +decide [toJson, Json.sorted, Json.sortedMembers, sortKeys, insertKey]

theorem Issue.ofJson_sorted (issue : Issue) : ofJson issue.toJson.sorted = .ok issue := by
  obtain ⟨severity, area, message, suggestion⟩ := issue
  rw [sorted_toJson]
  cases severity <;> rfl

theorem Report.sorted_toJson (report : Report) :
    report.toJson.sorted = .object [
      ("approved", .bool report.approved),
      ("checklist", (Json.object (report.checklist.entries.map fun (name, passed) =>
        (name, .bool passed))).sorted),
      ("issues", (Json.array (report.issues.map Issue.toJson)).sorted),
      ("score", .integer report.score.toNat),
      ("verdict", .string report.verdict.name)] := by
  simp +decide [toJson, Json.sorted, Json.sortedMembers, sortKeys, insertKey]

theorem Report.ofJson_sorted (report : Report) : ofJson report.toJson.sorted = .ok report := by
  have hverdict := Verdict.ofJson_name report.verdict
  have hscore := Json.asByte_toNat report.score
  have hissues := Json.asList_sorted Issue.ofJson_sorted report.issues
  have hchecklist : Json.asMap Json.asBool (Json.object (report.checklist.entries.map
      fun (name, passed) => (name, .bool passed))).sorted = .ok report.checklist :=
    Json.asMap_sorted (fun _ => rfl) report.checklist
  have happroved : Json.asBool (.bool report.approved) = .ok report.approved := rfl
  rw [sorted_toJson]
  simp [ofJson, Json.checkMembers, Json.Decoder.check, Json.field, Json.Members.get?,
    List.lookup_cons,
    hverdict, hscore, hissues, hchecklist, happroved, Except.map, bind, Except.bind, pure, Except.pure]

/-- An issue takes one bracket. -/
theorem Issue.fits_toJson (issue : Issue) (depth : Nat) : Json.Fits (depth + 1) issue.toJson := by
  refine .object fun member hmember => ?_
  simp only [List.mem_cons, List.not_mem_nil, or_false] at hmember
  rcases hmember with rfl | rfl | rfl | rfl
  all_goals exact .string _

/-- A report takes three brackets, the innermost ones for its issues. -/
theorem Report.fits_toJson (report : Report) (depth : Nat) : Json.Fits (depth + 3) report.toJson := by
  have hscore : Json.InRange report.score.toNat := by
    have hlt := report.score.toNat_lt
    constructor <;> omega
  refine .object fun member hmember => ?_
  simp only [List.mem_cons, List.not_mem_nil, or_false] at hmember
  rcases hmember with rfl | rfl | rfl | rfl | rfl
  · exact .string _
  · exact .integer hscore
  · refine .array fun item hitem => ?_
    obtain ⟨issue, _, rfl⟩ := List.mem_map.1 hitem
    exact issue.fits_toJson depth
  · refine .object fun entry hentry => ?_
    obtain ⟨_, _, rfl⟩ := List.mem_map.1 hentry
    exact .bool _
  · exact .bool _

/-- Every report is given back by its text, on one line or indented, and the text on one line has no
control characters. -/
theorem Report.given_back_by_text (report : Report) :
    (∃ value, Json.read report.toJson.compact = .ok value ∧ ofJson value = .ok report) ∧
      (∃ value, Json.read report.toJson.pretty = .ok value ∧ ofJson value = .ok report) ∧
      ∀ c ∈ report.toJson.compact.toList, 32 ≤ c.toNat := by
  have hfits : Json.Fits Json.maxDepth report.toJson := report.fits_toJson 124
  refine ⟨⟨_, Json.read_compact hfits, report.ofJson_sorted⟩,
    ⟨_, Json.read_pretty hfits, report.ofJson_sorted⟩, ?_⟩
  unfold Json.compact
  rw [String.toList_ofList]
  exact Json.printable_chars report.toJson

end PlanAudit
