import PlanAudit.Proofs.LeftmostOccurrence
import PlanAudit.Proofs.RaisedIssues
import PlanAudit.Proofs.SilentRules

/-! Which words of time estimates are reported: those that stand apart from the words about time
that estimate nothing. -/
namespace PlanAudit

namespace Vocabulary

/-- The words that `timeFalsePositives` reads. -/
def timelessWords : List String :=
  ["real-time", "realtime", "runtime", "run-time"]

/-- The words of time estimates that no timeless word runs into. -/
def detachedKeywords : List String :=
  ["hours", "minutes", "duration", "schedule", "deadline"]

theorem timeKeywords_spelling :
    ∀ keyword ∈ timeKeywords, keyword.toList ≠ [] ∧ ' ' ∉ keyword.toList := by
  decide

theorem detachedKeywords_subset : detachedKeywords ⊆ timeKeywords := by
  decide

private theorem interlock_detachedKeywords : ∀ keyword ∈ detachedKeywords, ∀ word ∈ timelessWords,
    Text.interlock keyword.toList word.toList = false ∧
      Text.interlock word.toList keyword.toList = false := by
  decide

theorem readsWords_timeFalsePositives : timeFalsePositives.ReadsWords timelessWords :=
  Pattern.readsWords_oneOf "real-time" ["realtime", "runtime", "run-time"]

theorem stripped_timelessWords (text : List Char) :
    ∃ spans, Text.Stripped timelessWords ' ' text 0 spans (timeFalsePositives.replaceIn ' ' text) :=
  Pattern.stripped_replaceIn readsWords_timeFalsePositives (by decide) (by decide) ' ' text

theorem leftmost_timelessWords_unique {text : List Char} {spans others : List Text.Span}
    (h : Text.Leftmost timelessWords text 0 spans)
    (h' : Text.Leftmost timelessWords text 0 others) : spans = others :=
  h.unique (by decide) h'

/-- Wherever it stands, a detached keyword stands apart from the timeless words. -/
theorem standsApart_of_detached {keyword : String} (hkeyword : keyword ∈ detachedKeywords)
    {text : List Char} {spans : List Text.Span} (hspans : Text.Leftmost timelessWords text 0 spans)
    {place : Nat} (h : Text.StandsAt keyword.toList text place) :
    Text.StandsApart keyword.toList text spans place := by
  refine ⟨h, fun span hspan => ?_⟩
  obtain ⟨word, hword, i, _, hstands, rfl⟩ := hspans.exists_word hspan
  obtain ⟨hafter, hbefore⟩ := interlock_detachedKeywords keyword hkeyword word hword
  exact h.not_overlaps hafter hbefore hstands

end Vocabulary

namespace Rule

theorem mem_timeKeywordsIn_iff {keyword : String} (hkeyword : keyword ∈ Vocabulary.timeKeywords)
    (text : List Char) :
    keyword ∈ timeKeywordsIn text ↔
      keyword.toList <:+: Vocabulary.timeFalsePositives.replaceIn ' ' (Text.lower text) := by
  rw [timeKeywordsIn, List.mem_filter, Pattern.occursIn_iff_matches, Pattern.matches_literal_iff]
  exact and_iff_right hkeyword

theorem timeEstimates_eq (text : List Char) :
    timeEstimates text =
      if timeKeywordsIn text = [] then [] else [.timeEstimates (timeKeywordsIn text)] := by
  unfold timeEstimates
  split
  · next h => rw [if_pos h]
  · next h => rw [if_neg h]

end Rule

/-- A keyword is listed where it shares no character with the leftmost timeless words. What takes
their place never spells a keyword. -/
theorem time_policy_lists_keywords_apart (required : List String) (plan : Plan)
    (issues : List Issue) :
    let text := Text.lower plan.text.toList
    let rest := Vocabulary.timeFalsePositives.replaceIn ' ' text
    let listed := Rule.timeKeywordsIn plan.text.toList
    Check.timePolicy.run required plan issues = issues ++
        (if listed = [] then [] else
          [⟨.major, "document", "Time-based estimates found: " ++ ", ".intercalate listed,
            "Remove time estimates; rate work by complexity and effort level instead"⟩]) ∧
      listed.Sublist Vocabulary.timeKeywords ∧ listed.Nodup ∧
      (∃ spans, (∀ others, Text.Leftmost ["real-time", "realtime", "runtime", "run-time"] text 0
          others ↔ others = spans) ∧
        ∀ keyword ∈ Vocabulary.timeKeywords, keyword ∈ listed ↔
          ∃ place, Text.StandsApart keyword.toList text spans place) ∧
      (∀ keyword ∈ Vocabulary.timeKeywords,
        keyword.toList <:+: rest → keyword.toList <:+: text) ∧
      ∀ keyword ∈ ["hours", "minutes", "duration", "schedule", "deadline"],
        keyword.toList <:+: text → keyword.toList <:+: rest ∧ keyword ∈ listed := by
  intro text rest listed
  have hsublist : listed.Sublist Vocabulary.timeKeywords := List.filter_sublist
  have hnodup : Vocabulary.timeKeywords.Nodup := by decide
  obtain ⟨spans, hstripped⟩ := Vocabulary.stripped_timelessWords text
  have hrest : ∀ keyword ∈ Vocabulary.timeKeywords,
      (keyword.toList <:+: rest ↔ ∃ place, Text.StandsApart keyword.toList text spans place) := by
    intro keyword hkeyword
    obtain ⟨hne, hfiller⟩ := Vocabulary.timeKeywords_spelling keyword hkeyword
    rw [hstripped.infix_iff hne hfiller]
    simp only [Nat.zero_le, true_and]
  refine ⟨?_, hsublist, hnodup.sublist hsublist, ⟨spans, fun others => ?_, ?_⟩, ?_, ?_⟩
  · rw [Check.run_eq, Check.findings, Plan.chars_toJson, Rule.timeEstimates_eq]
    split_ifs <;> rfl
  · constructor
    · exact fun h => Vocabulary.leftmost_timelessWords_unique h hstripped.leftmost
    · rintro rfl
      exact hstripped.leftmost
  · intro keyword hkeyword
    rw [Rule.mem_timeKeywordsIn_iff hkeyword]
    exact hrest keyword hkeyword
  · intro keyword hkeyword hinfix
    obtain ⟨place, hstands, _⟩ := (hrest keyword hkeyword).1 hinfix
    exact Text.infix_iff_exists_standsAt.2 ⟨place, hstands⟩
  · intro keyword hdetached hinfix
    have hkeyword := Vocabulary.detachedKeywords_subset hdetached
    obtain ⟨place, hstands⟩ := Text.infix_iff_exists_standsAt.1 hinfix
    have hkept : keyword.toList <:+: rest := (hrest keyword hkeyword).2
      ⟨place, Vocabulary.standsApart_of_detached hdetached hstripped.leftmost hstands⟩
    exact ⟨hkept, (Rule.mem_timeKeywordsIn_iff hkeyword _).2 hkept⟩

/-- Each of the three other keywords shares characters with a timeless word. -/
def entangledPlan : Plan :=
  ⟨[("goal", .string "Runtimeline hours, run-time_estimate, realtimestimated_time")]⟩

theorem entangled_keywords_not_listed :
    (∀ keyword ∈ ["hours", "timeline", "time_estimate", "estimated_time"],
      keyword.toList <:+: Text.lower entangledPlan.text.toList) ∧
    Check.timePolicy.run [] entangledPlan [] =
      [⟨.major, "document", "Time-based estimates found: hours",
        "Remove time estimates; rate work by complexity and effort level instead"⟩] ∧
    ∃ spans,
      Text.Leftmost ["real-time", "realtime", "runtime", "run-time"]
        (Text.lower entangledPlan.text.toList) 0 spans ∧
      (∃ place,
        Text.StandsApart "hours".toList (Text.lower entangledPlan.text.toList) spans place) ∧
      ¬ ∃ place,
        Text.StandsApart "timeline".toList (Text.lower entangledPlan.text.toList) spans place := by
  have hlisted : Rule.timeKeywordsIn entangledPlan.text.toList = ["hours"] := by decide
  have hspelled : ∀ keyword ∈ ["hours", "timeline", "time_estimate", "estimated_time"],
      keyword.toList <:+: Text.lower entangledPlan.text.toList := by
    decide
  obtain ⟨hrun, _, _, ⟨spans, hspans, hapart⟩, _, hdetached⟩ :=
    time_policy_lists_keywords_apart [] entangledPlan []
  rw [hlisted] at hrun hapart hdetached
  refine ⟨hspelled, hrun, spans, (hspans spans).2 rfl, ?_, ?_⟩
  · have hhours := hdetached "hours" (by decide) (hspelled "hours" (by decide))
    exact (hapart "hours" (by decide)).1 hhours.2
  · intro hplace
    have htimeline := (hapart "timeline" (by decide)).2 hplace
    simp at htimeline

end PlanAudit
