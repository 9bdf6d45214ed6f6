import SourcePreview.Proofs.Highlight.Keeping

/-!
# Property lists and XML

Both languages have the same rules, but the markup is left out for property lists.  Text that the
markup would have taken is then free, and only numbers can take it: the comments and strings come
before the markup and stay the same, and a number that found its place besides the markup finds it
without the markup as well.
-/

namespace SourcePreview

/-- The classes of the tokens that a rule may find. -/
def Rule.classes : Rule → List TokenClass
  | .whole _ tokenClass => [tokenClass]
  | .inner _ _ _ tokenClass => [tokenClass]
  | .firstOf parts => parts.map (·.2)

/-- A rule asks for stretches of its own classes only. -/
theorem Rule.tokenClass_mem_classes
    {rule : Rule} {text : List Char} {claim : Claim}
    (asked : claim ∈ rule.claims text) :
    claim.tokenClass ∈ rule.classes := by
  obtain ⟨place, after, _, finds⟩ := exists_find_of_mem_claims asked
  cases rule with
  | whole pattern tokenClass =>
      obtain ⟨_, same⟩ := pattern.exists_of_firstMatch finds
      cases same
      exact List.mem_singleton_self _
  | inner lead target follow tokenClass =>
      obtain ⟨_, finds⟩ := lead.exists_of_firstMatch finds
      obtain ⟨_, finds⟩ := target.exists_of_firstMatch finds
      obtain ⟨_, same⟩ := follow.exists_of_firstMatch finds
      cases same
      exact List.mem_singleton_self _
  | firstOf parts =>
      obtain ⟨⟨pattern, tokenClass⟩, member, fits⟩ :=
        List.exists_of_findSome?_eq_some finds
      obtain ⟨_, same⟩ := pattern.exists_of_firstMatch fits
      cases same
      exact List.mem_map_of_mem member

namespace Highlight

/-- Leaving out the rules between two others takes nothing away from the last one. -/
theorem mem_keptOf_of_mem_keptOf_between
    {first last : Rule} {between : List Rule} {text : List Char} {claim : Claim}
    (asked : claim ∈ last.claims text)
    (kept : claim ∈ keptOf (first :: (between ++ [last])) text) :
    claim ∈ keptOf [first, last] text := by
  have nonempty := nonempty_of_mem_keptOf kept
  by_cases askedFirst : claim ∈ first.claims text
  · exact mem_keptOf_of_mem_claims_head askedFirst nonempty
  · show claim ∈ keptOf ([first] ++ last :: []) text
    refine mem_keptOf_of_mem_claims asked nonempty ?_
    intro earlier member prior priorAsked priorKept meets
    rw [List.mem_singleton.mp member] at priorAsked
    -- With the rules between, the first rule has kept the same stretch.
    have priorKeptThere : prior ∈ keptOf (first :: (between ++ [last])) text :=
      mem_keptOf_of_mem_claims_head priorAsked (nonempty_of_mem_keptOf priorKept)
    rw [eq_of_meets priorKeptThere kept meets] at priorAsked
    exact askedFirst priorAsked

/-- Whether the first rule finds comments and strings, the last one numbers, and those between
markup. -/
structure SeparateClasses (lexical : Rule) (markup : List Rule) (numbers : Rule) : Prop where
  lexical : ∀ tokenClass ∈ lexical.classes, tokenClass = .comment ∨ tokenClass = .string
  markup : ∀ rule ∈ markup, ∀ tokenClass ∈ rule.classes,
    tokenClass = .tag ∨ tokenClass = .type ∨ tokenClass = .builtin
  numbers : numbers.classes = [.number]

namespace SeparateClasses

variable {lexical numbers : Rule} {markup : List Rule} {text : List Char} {claim : Claim}

/-- The class of a kept stretch tells which of the rules has asked for it. -/
theorem cases
    (separate : SeparateClasses lexical markup numbers)
    (kept : claim ∈ keptOf (lexical :: (markup ++ [numbers])) text) :
    claim ∈ lexical.claims text ∧
        (claim.tokenClass = .comment ∨ claim.tokenClass = .string) ∨
      markup ≠ [] ∧
        (claim.tokenClass = .tag ∨ claim.tokenClass = .type ∨ claim.tokenClass = .builtin) ∨
      claim ∈ numbers.claims text ∧ claim.tokenClass = .number := by
  obtain ⟨rule, member, asked⟩ := mem_candidates_of_mem_keptOf kept
  have classMember := Rule.tokenClass_mem_classes asked
  rcases List.mem_cons.mp member with rfl | later
  · exact Or.inl ⟨asked, separate.lexical _ classMember⟩
  · rcases List.mem_append.mp later with isMarkup | isLast
    · exact
        Or.inr (Or.inl
          ⟨List.ne_nil_of_mem isMarkup, separate.markup rule isMarkup _ classMember⟩)
    · rw [List.mem_singleton.mp isLast] at asked classMember
      rw [separate.numbers] at classMember
      exact Or.inr (Or.inr ⟨asked, List.mem_singleton.mp classMember⟩)

/-- Comments and strings are kept whatever the rules behind the first one are. -/
theorem mem_keptOf_of_lexical
    (separate : SeparateClasses lexical markup numbers)
    (kept : claim ∈ keptOf (lexical :: (markup ++ [numbers])) text)
    (isLexical : claim.tokenClass = .comment ∨ claim.tokenClass = .string)
    (rules : List Rule) :
    claim ∈ keptOf (lexical :: rules) text := by
  rcases separate.cases kept with ⟨asked, _⟩ | ⟨_, isMarkup⟩ | ⟨_, isNumber⟩
  · exact mem_keptOf_of_mem_claims_head asked (nonempty_of_mem_keptOf kept)
  · rcases isLexical with same | same <;> simp [same] at isMarkup
  · simp [isNumber] at isLexical

/-- Numbers are kept without the markup as well. -/
theorem mem_keptOf_of_number
    (separate : SeparateClasses lexical markup numbers)
    (kept : claim ∈ keptOf (lexical :: (markup ++ [numbers])) text)
    (isNumber : claim.tokenClass = .number) :
    claim ∈ keptOf [lexical, numbers] text := by
  rcases separate.cases kept with ⟨_, isLexical⟩ | ⟨_, isMarkup⟩ | ⟨asked, _⟩
  · simp [isNumber] at isLexical
  · simp [isNumber] at isMarkup
  · exact mem_keptOf_of_mem_keptOf_between asked kept

end SeparateClasses

/-- The rules of property lists are those of XML without the markup between. -/
theorem exists_activeRules_xml :
    ∃ (lexical numbers : Rule) (markup : List Rule),
      activeRules .plist RuleTable.xml = [lexical, numbers] ∧
      activeRules .xml RuleTable.xml = lexical :: (markup ++ [numbers]) ∧
      SeparateClasses lexical markup numbers := by
  refine
    ⟨_, _, (RuleTable.xml.filter fun entry => entry.kind == .markup).map (·.rule),
      rfl, rfl, ⟨?_, ?_, rfl⟩⟩
  · simp [RuleEntry.lexical, Rule.classes]
  · simp [RuleTable.xml, RuleTable.markupCore, RuleEntry.lexical, RuleEntry.markup,
      RuleEntry.markupWithin, RuleEntry.numbers, Rule.classes]

/--
The spans of a property list are comments, strings and numbers.  Compared with the spans of the
same text as XML, the comments and strings are the same, and every number of the XML is a number
of the property list.
-/
theorem spans?_plist_of_xml (text : String) :
    ∃ plist xml,
      spans? .plist text (fun _ => false) = some plist ∧
      spans? .xml text (fun _ => false) = some xml ∧
      (∀ span ∈ plist,
        span.tokenClass = .comment ∨ span.tokenClass = .string ∨
          span.tokenClass = .number) ∧
      (∀ span : Span,
        span.tokenClass = .comment ∨ span.tokenClass = .string →
          (span ∈ plist ↔ span ∈ xml)) ∧
      ∀ span ∈ xml, span.tokenClass = .number → span ∈ plist := by
  obtain ⟨lexical, numbers, markup, plistRules, xmlRules, separate⟩ :=
    exists_activeRules_xml
  have separateAlone : SeparateClasses lexical [] numbers :=
    ⟨separate.lexical, by simp, separate.numbers⟩
  obtain ⟨plist, plistGiven, inPlist⟩ :=
    exists_spans?_mem_iff (show Language.plist.ruleTable? = some RuleTable.xml from rfl) text
  obtain ⟨xml, xmlGiven, inXml⟩ :=
    exists_spans?_mem_iff (show Language.xml.ruleTable? = some RuleTable.xml from rfl) text
  rw [plistRules] at inPlist
  rw [xmlRules] at inXml
  refine ⟨plist, xml, plistGiven, xmlGiven, ?_, ?_, ?_⟩
  · intro span member
    obtain ⟨claim, kept, rfl⟩ := (inPlist span).mp member
    rcases separateAlone.cases kept with ⟨_, isLexical⟩ | ⟨noMarkup, _⟩ | ⟨_, isNumber⟩
    · exact isLexical.imp_right Or.inl
    · exact absurd rfl noMarkup
    · exact Or.inr (Or.inr isNumber)
  · intro span isLexical
    rw [inPlist, inXml]
    constructor
    · rintro ⟨claim, kept, rfl⟩
      exact ⟨claim, separateAlone.mem_keptOf_of_lexical kept isLexical _, rfl⟩
    · rintro ⟨claim, kept, rfl⟩
      exact ⟨claim, separate.mem_keptOf_of_lexical kept isLexical _, rfl⟩
  · intro span member isNumber
    obtain ⟨claim, kept, rfl⟩ := (inXml span).mp member
    exact (inPlist _).mpr ⟨claim, separate.mem_keptOf_of_number kept isNumber, rfl⟩

end Highlight

end SourcePreview
