import SourcePreview.Proofs.Highlight.Keeping
import SourcePreview.Proofs.Pattern.Groups

/-!
# Comments and strings own their text

In every language but JSON the first rule finds comments and strings, with one group for each form
that they may take.  No form is ever empty, a match is made by the group of one form alone, and the
whole match becomes a span of the class of that form.  All other spans lie before or behind it, so
nothing is found inside a comment or a string.
-/

namespace SourcePreview

/-- A form that cannot be empty leads to the next place of the text. -/
theorem Pattern.offset_lt_of_end?
    {pattern : Pattern} (consumes : pattern.consumes = true)
    {text : List Char} {cursor after : Cursor} (inText : cursor.IsIn text)
    (ends : pattern.end? cursor = some after) :
    cursor.offset < after.offset := by
  obtain ⟨passed, coming, _, rfl⟩ := inText
  obtain ⟨stretch, ahead, _, _, nonempty, same⟩ := pattern.firstMatch_stretch ends
  cases same
  cases stretch with
  | nil => exact absurd rfl (nonempty consumes)
  | cons character stretch =>
      have positive : 0 < character.utf8Size := character.utf8Size_pos
      simp only [Cursor.offset_between, Text.byteLength_append, Text.byteLength_cons]
      omega

namespace Highlight

/-- Comments and strings come first in the table of every language but JSON. -/
theorem exists_lexical_head
    {language : Language} {table : RuleTable}
    (tabled : language.ruleTable? = some table) (notJson : language ≠ .json) :
    ∃ parts later,
      table = RuleEntry.lexical parts :: later ∧
      (∀ entry ∈ later, entry.kind ≠ .lexical) ∧
      ∀ part ∈ parts,
        part.1.consumes = true ∧ (part.2 = .comment ∨ part.2 = .string) := by
  cases language <;> cases tabled
  case json => exact absurd rfl notJson
  all_goals exact ⟨_, _, rfl, by decide, by decide⟩

/-- A span of a text stands between those that end before it and those that start behind it. -/
theorem exists_append_of_mem_spans?
    {language : Language} {text : String} {spans : List Span}
    (given : spans? language text (fun _ => false) = some spans)
    {span : Span} (member : span ∈ spans) :
    ∃ before after,
      spans = before ++ span :: after ∧
        (∀ other ∈ before, other.stop ≤ span.start) ∧
        ∀ other ∈ after, span.stop ≤ other.start := by
  obtain ⟨_, givenToo, wellFormed⟩ := exists_spans?_never language text
  cases given.symm.trans givenToo
  have apart := (Span.wellFormedFrom_iff.mp wellFormed).2
  obtain ⟨before, after, parts⟩ := List.append_of_mem member
  rw [parts, List.pairwise_append, List.pairwise_cons] at apart
  obtain ⟨_, ⟨behind, _⟩, across⟩ := apart
  exact ⟨before, after, parts, fun other earlier => across other earlier span (by simp), behind⟩

/--
In a language other than JSON, comments and strings own their text.  There is one rule for them,
with a group for each of their forms.  Wherever it matches, the match is not empty, exactly one
group takes part, and it takes the whole match.  Each match in a text is covered by one span with
the class of its form, which is that of comments or of strings, and every other span of the text
lies before or behind it.
-/
theorem comments_and_strings_own_text
    {language : Language} {table : RuleTable}
    (tabled : language.ruleTable? = some table) (notJson : language ≠ .json)
    (text : String) :
    ∃ parts spans,
      (table.filter fun entry => entry.kind == .lexical).map (·.rule) = [.firstOf parts] ∧
      (∀ place found after,
        place.IsIn text.toList →
        (Rule.firstOf parts).groupPattern.match? place = some (found, after) →
          found.start < found.stop ∧
            ∃ index < parts.length,
              found.captures = .only (index + 1) found.start found.stop) ∧
      spans? language text (fun _ => false) = some spans ∧
      ∀ found ∈ (Rule.firstOf parts).groupPattern.matchesIn text.toList,
        ∃ index pattern tokenClass before after,
          parts[index]? = some (pattern, tokenClass) ∧
          (tokenClass = .comment ∨ tokenClass = .string) ∧
          found.captures = .only (index + 1) found.start found.stop ∧
          spans = before ++ (found.toClaim tokenClass).toSpan text.toList :: after ∧
          (∀ other ∈ before,
            other.stop ≤ ((found.toClaim tokenClass).toSpan text.toList).start) ∧
          ∀ other ∈ after,
            ((found.toClaim tokenClass).toSpan text.toList).stop ≤ other.start := by
  obtain ⟨parts, later, rfl, laterKinds, forms⟩ := exists_lexical_head tabled notJson
  obtain ⟨spans, given, inSpans⟩ := exists_spans?_mem_iff tabled text
  have nonempty {place after : Cursor} {found : GroupMatch}
      (inText : place.IsIn text.toList)
      (matched : (Rule.firstOf parts).groupPattern.match? place = some (found, after)) :
      found.start < found.stop := by
    obtain ⟨index, pattern, tokenClass, isPart, ends, rfl, _⟩ :=
      Rule.exists_part_of_match? matched
    exact
      Pattern.offset_lt_of_end? (forms _ (List.mem_of_getElem? isPart)).1 inText ends
  refine ⟨parts, spans, ?_, ?_, given, ?_⟩
  · have noneLater : (later.filter fun entry => entry.kind == .lexical) = [] := by
      simpa using laterKinds
    simp [RuleEntry.lexical, noneLater]
  · intro place found after inText matched
    refine ⟨nonempty inText matched, ?_⟩
    obtain ⟨index, pattern, tokenClass, isPart, _, rfl, _⟩ :=
      Rule.exists_part_of_match? matched
    exact ⟨index, (List.getElem?_eq_some_iff.mp isPart).1, rfl⟩
  · intro found member
    obtain ⟨place, after, inText, matched⟩ :=
      Rule.exists_match?_of_mem_matchesIn member
    obtain ⟨index, pattern, tokenClass, isPart, _, same, token⟩ :=
      Rule.exists_part_of_match? matched
    have asked :
        found.toClaim tokenClass ∈ (Rule.firstOf parts).claims text.toList := by
      rw [Rule.claims_eq_filterMap]
      exact List.mem_filterMap.mpr ⟨found, member, token⟩
    have isSpan : (found.toClaim tokenClass).toSpan text.toList ∈ spans := by
      refine (inSpans _).mpr ⟨_, ?_, rfl⟩
      exact mem_keptOf_of_mem_claims_head asked (nonempty inText matched)
    obtain ⟨before, behind, isWhole, beforeStop, behindStart⟩ :=
      exists_append_of_mem_spans? given isSpan
    refine
      ⟨index, pattern, tokenClass, before, behind, isPart,
        (forms _ (List.mem_of_getElem? isPart)).2, ?_, isWhole, beforeStop, behindStart⟩
    rw [same]

/-- In Rust a comment mark inside a string starts no comment, and the string is one span. -/
theorem comments_and_strings_own_text_rust :
    let text := "a = \"//\"; // \"b\""
    Language.rust.ruleTable? = some RuleTable.rust ∧ Language.rust ≠ .json ∧
      ∃ before after,
        spans? .rust text (fun _ => false) = some (before ++ ⟨4, 8, .string⟩ :: after) ∧
        (∀ other ∈ before, other.stop ≤ 4) ∧ ∀ other ∈ after, 8 ≤ other.start := by
  intro text
  refine ⟨rfl, by decide, ?_⟩
  obtain ⟨parts, spans, isLexical, _, given, owned⟩ :=
    comments_and_strings_own_text
      (show Language.rust.ruleTable? = some RuleTable.rust from rfl) (by decide) text
  have isRule : Rule.firstOf parts = (RuleTable.rust.head (by decide)).rule :=
    (List.cons.inj isLexical).1.symm
  rw [isRule] at owned
  obtain ⟨found, member, starts, stops, group⟩ :
      ∃ found ∈ (RuleTable.rust.head (by decide)).rule.groupPattern.matchesIn text.toList,
        found.start = 4 ∧ found.stop = 8 ∧ found.captures 5 = some (4, 8) := by
    decide +kernel
  obtain ⟨index, pattern, tokenClass, before, after, isPart, _, captures, isWhole,
    beforeStop, behindStart⟩ := owned found member
  have isFifth : index = 4 := by
    rw [captures, Captures.only] at group
    split at group
    · omega
    · cases group
  have isString : tokenClass = .string := by
    cases isRule
    rw [isFifth] at isPart
    exact (congrArg (·.2) (Option.some.inj isPart)).symm
  have isSpan :
      (found.toClaim tokenClass).toSpan text.toList = ⟨4, 8, .string⟩ := by
    rw [GroupMatch.toClaim, starts, stops, isString]
    decide +kernel
  rw [isSpan] at isWhole beforeStop behindStart
  exact ⟨before, after, by rw [given, isWhole], beforeStop, behindStart⟩

end Highlight

end SourcePreview
