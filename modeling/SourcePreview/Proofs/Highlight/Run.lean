import SourcePreview.Preview.Highlighter
import SourcePreview.Proofs.Highlight.Selection

/-!
# Runs that are called off

A run asks before each of its rules whether it has been called off.  One yes takes all spans away;
otherwise the spans are those of the run that nobody calls off, whatever else happened.
-/

namespace SourcePreview

namespace Highlight

/-- A run claims all that its rules ask for unless one of its polls is answered by yes. -/
theorem runRules_eq_ite
    (calledOff : Nat → Bool) (text : List Char) (poll : Nat) (rules : List Rule)
    (claims : Claims) :
    runRules calledOff text poll rules claims =
      if ∃ asked < rules.length, calledOff (poll + asked) = true then none
      else some ((candidates rules text).foldl Claims.add claims) := by
  induction rules generalizing poll claims with
  | nil => simp [runRules, candidates]
  | cons rule rules ih =>
      -- The first poll is the one before this rule; the others are those of the remaining run.
      have polls :
          (∃ asked < (rule :: rules).length, calledOff (poll + asked) = true) ↔
            calledOff poll = true ∨
              ∃ asked < rules.length, calledOff (poll + 1 + asked) = true := by
        rw [List.length_cons, Nat.exists_lt_succ_left]
        simp only [Nat.add_zero, Nat.add_assoc, Nat.add_comm 1]
      simp only [runRules, ih, polls]
      by_cases first : calledOff poll = true
      · simp [first]
      · simp [first, candidates, applyRule, List.foldl_append]

theorem spans?_never_eq_some_spans (language : Language) (text : String) :
    spans? language text (fun _ => false) = some (spans language text) := by
  obtain ⟨found, given, _⟩ := exists_spans?_never language text
  rw [spans, given, Option.getD_some]

/-- In a language with rules, a run gives all spans unless one of its polls is answered by yes. -/
theorem spans?_eq_ite
    {language : Language} {table : RuleTable}
    (tabled : language.ruleTable? = some table)
    (text : String) (calledOff : Nat → Bool) :
    spans? language text calledOff =
      if ∃ poll < (activeRules language table).length, calledOff poll = true then none
      else some (spans language text) := by
  have never := spans?_never_eq_some_spans language text
  simp only [spans?, tabled, runRules_eq_ite, Nat.zero_add] at never ⊢
  split
  · rfl
  · simpa using never

/-- The spans of a completed run do not depend on the answers to its polls. -/
theorem eq_spans_of_spans?
    {language : Language} {text : String} {calledOff : Nat → Bool}
    {found : List Span}
    (completes : spans? language text calledOff = some found) :
    found = spans language text := by
  cases tabled : language.ruleTable? with
  | none => simp_all [spans?, spans]
  | some table =>
      rw [spans?_eq_ite tabled] at completes
      split at completes
      · cases completes
      · exact (Option.some.inj completes).symm

/--
A run that is called off gives nothing, and every other run gives the spans of the run that nobody
calls off.  In a language with rules it is called off if one of the polls before the rules that
are run for the language is answered by yes.  In a language without rules there are no spans and
nobody is asked.
-/
theorem spans?_allOrNothing
    (language : Language) (text : String) (calledOff : Nat → Bool) :
    (spans? language text calledOff =
      match language.ruleTable? with
      | none => some []
      | some table =>
        if ∃ poll < (activeRules language table).length, calledOff poll = true then none
        else some (spans language text)) ∧
    spans? language text (fun _ => false) = some (spans language text) := by
  refine ⟨?_, spans?_never_eq_some_spans language text⟩
  split
  · next untabled => rw [spans?, untabled]
  · next table tabled => exact spans?_eq_ite tabled text calledOff

theorem isWellFormed_highlighted
    (language : Language) (text : String) (palette : Palette) :
    (StyledText.highlighted language text (spans language text)
      palette).isWellFormed = true := by
  obtain ⟨found, given, wellFormed⟩ := exists_spans?_never language text
  rw [spans?_never_eq_some_spans] at given
  rw [Option.some.inj given]
  exact wellFormed

end Highlight

/-- How the work on one text goes: the answers to the polls, and whether it is over in time. -/
structure Timing where
  calledOff : Nat → Bool
  inTime : Bool

namespace Highlighter

/-- The highlighter of the rule tables when its work goes in some way. -/
def timed (timing : Timing) : Highlighter where
  supports := Highlight.supports
  run language text _ :=
    if timing.inTime then
      match Highlight.spans? language text timing.calledOff with
      | some spans => .finished spans
      | none => .stopped
    else .overran

/-- Whether a highlighter finds what the rule tables find, if it finds anything. -/
structure FindsPatterns (highlighter : Highlighter) : Prop where
  supports : highlighter.supports = Highlight.supports
  spans : ∀ {language text deadline spans},
    (highlighter.run language text deadline).spans? = some spans →
      spans = Highlight.spans language text

theorem findsPatterns_timed (timing : Timing) :
    (timed timing).FindsPatterns := by
  refine ⟨rfl, fun {language text deadline spans} finishes => ?_⟩
  unfold timed at finishes
  dsimp only at finishes
  split at finishes
  · split at finishes
    · next found completes =>
        cases finishes
        exact Highlight.eq_spans_of_spans? completes
    · cases finishes
  · cases finishes

/-- The highlighter as it runs is one of these: it is called off exactly if its deadline is
already over. -/
theorem run_patterns
    (language : Language) (text : String) (deadline : Deadline) :
    Highlighter.patterns.run language text deadline =
      (timed ⟨fun _ => deadline.isOver, true⟩).run language text deadline := rfl

end Highlighter

end SourcePreview
