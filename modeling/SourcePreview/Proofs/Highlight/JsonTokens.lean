import SourcePreview.Proofs.Highlight.JsonScalars
import SourcePreview.Proofs.Highlight.JsonStrings
import SourcePreview.Proofs.Highlight.Keeping

/-!
# The tokens of highlighted JSON texts

Each rule for JSON texts goes over a text lexeme by lexeme.  It asks for the tokens of its own
class, and whatever else it asks for lies inside tokens of classes that come before.  So the rules
together keep exactly the tokens of the text, unless the rule for names finds one where there is
none: the text behind a string that is a value, up to the next string on the same line, is taken
for a name if that next string opens with a colon.
-/

namespace SourcePreview.JsonText

open Claim Cursor Rule

/-! ### Stretches of tokens -/

/-- The stretch of a lexeme behind some text, if it is a token. -/
def Lexeme.claim? (passed : List Char) (lexeme : Lexeme) : Option Claim :=
  lexeme.tokenClass?.map fun tokenClass =>
    ⟨Text.byteLength passed, Text.byteLength (passed ++ lexeme.chars), tokenClass⟩

/-- The stretches of the tokens among lexemes behind some text. -/
def tokenClaims : (passed : List Char) → List Lexeme → List Claim
  | _, [] => []
  | passed, lexeme :: rest =>
    (lexeme.claim? passed).toList ++ tokenClaims (passed ++ lexeme.chars) rest

/-- Counted in characters, the stretches of the tokens are their spans. -/
theorem map_toSpan_tokenClaims
    {text passed : List Char} {lexemes : List Lexeme} (whole : text = passed ++ spell lexemes) :
    (tokenClaims passed lexemes).map (Claim.toSpan text) = tokensFrom passed.length lexemes := by
  induction lexemes generalizing passed with
  | nil => rfl
  | cons lexeme rest ih =>
      have wholeBehind : text = passed ++ lexeme.chars ++ spell rest := by
        rw [whole, spell_cons, List.append_assoc]
      have startAt := Text.charactersBefore_append passed (spell (lexeme :: rest))
      have stopAt := Text.charactersBefore_append (passed ++ lexeme.chars) (spell rest)
      rw [← whole] at startAt
      rw [← wholeBehind] at stopAt
      have others := ih wholeBehind
      rw [List.length_append] at others stopAt
      unfold tokenClaims tokensFrom Lexeme.claim?
      cases lexeme.tokenClass? with
      | none => simpa using others
      | some tokenClass => simp [Claim.toSpan, startAt, stopAt, others, -Text.byteLength_append]

/-- Tokens start behind the text that was passed. -/
theorem le_start_of_mem_tokenClaims
    {passed : List Char} {lexemes : List Lexeme} {token : Claim}
    (member : token ∈ tokenClaims passed lexemes) :
    Text.byteLength passed ≤ token.start := by
  induction lexemes generalizing passed with
  | nil => simp [tokenClaims] at member
  | cons lexeme rest ih =>
      rcases List.mem_append.mp member with here | later
      · obtain ⟨tokenClass, _, rfl⟩ := Option.map_eq_some_iff.mp (Option.mem_toList.mp here)
        exact Nat.le_refl _
      · have behind := ih later
        rw [Text.byteLength_append] at behind
        omega

/-- A token is a name, a string, a number or a literal name. -/
theorem tokenClass_of_mem_tokenClaims
    {passed : List Char} {lexemes : List Lexeme} {token : Claim}
    (member : token ∈ tokenClaims passed lexemes) :
    token.tokenClass ∈ [.tag, .string, .number, .keyword] := by
  induction lexemes generalizing passed with
  | nil => simp [tokenClaims] at member
  | cons lexeme rest ih =>
      rcases List.mem_append.mp member with here | later
      · obtain ⟨tokenClass, isToken, rfl⟩ :=
          Option.map_eq_some_iff.mp (Option.mem_toList.mp here)
        cases lexeme <;> cases isToken <;> simp
      · exact ih later

/-- The tokens of a text are non-empty, in order and apart from each other. -/
theorem ordered_tokenClaims
    {lexemes : List Lexeme} (regular : Regular lexemes) (passed : List Char) :
    Ordered (tokenClaims passed lexemes) := by
  induction lexemes generalizing passed with
  | nil => exact ⟨by simp [tokenClaims], by simp [tokenClaims]⟩
  | cons lexeme rest ih =>
      obtain ⟨fits, regularRest⟩ := regular
      have others := ih regularRest (passed ++ lexeme.chars)
      unfold tokenClaims
      cases here : lexeme.claim? passed with
      | none => exact others
      | some token =>
          obtain ⟨tokenClass, _, rfl⟩ := Option.map_eq_some_iff.mp here
          refine ⟨List.forall_mem_cons.mpr ⟨?_, others.nonempty⟩,
            List.pairwise_cons.mpr ⟨fun other => le_start_of_mem_tokenClaims, others.apart⟩⟩
          obtain ⟨first, chars, spelled⟩ := List.exists_cons_of_ne_nil fits.chars_ne_nil
          have positive := first.utf8Size_pos
          simp only [Text.byteLength_append, spelled, Text.byteLength_cons]
          omega

/-! ### What rules ask for -/

/-- Whether all tokens of a class are among the stretches that are asked for, and every such
stretch lies inside a token of one of some classes. -/
structure Reads
    (asked tokens : List Claim) (touched : List TokenClass) (taken : TokenClass) : Prop where
  asks : ∀ token ∈ tokens, token.tokenClass = taken → token ∈ asked
  inside : ∀ claim ∈ asked,
    ∃ token ∈ tokens,
      token.tokenClass ∈ touched ∧ token.start ≤ claim.start ∧ claim.stop ≤ token.stop

section

variable {touched : List TokenClass} {taken : TokenClass} {rule : Rule}

theorem reads_nil : Reads [] [] touched taken :=
  ⟨by simp, by simp⟩

theorem Reads.append
    {asked tokens otherAsked otherTokens : List Claim}
    (reads : Reads asked tokens touched taken)
    (readsOther : Reads otherAsked otherTokens touched taken) :
    Reads (asked ++ otherAsked) (tokens ++ otherTokens) touched taken := by
  constructor
  · intro token member ofClass
    rcases List.mem_append.mp member with here | later
    · exact List.mem_append_left _ (reads.asks token here ofClass)
    · exact List.mem_append_right _ (readsOther.asks token later ofClass)
  · intro claim member
    rcases List.mem_append.mp member with here | later
    · obtain ⟨token, tokenMember, bounds⟩ := reads.inside claim here
      exact ⟨token, List.mem_append_left _ tokenMember, bounds⟩
    · obtain ⟨token, tokenMember, bounds⟩ := readsOther.inside claim later
      exact ⟨token, List.mem_append_right _ tokenMember, bounds⟩

/-- Whether a rule gets to the end of a lexeme and reads it on the way. -/
def Crosses
    (rule : Rule) (touched : List TokenClass) (taken : TokenClass)
    (passed : List Char) (lexeme : Lexeme) (coming : List Char) : Prop :=
  ∃ asked,
    rule.claimsFrom (between passed (lexeme.chars ++ coming)) =
        asked ++ rule.claimsFrom (between (passed ++ lexeme.chars) coming) ∧
      Reads asked (lexeme.claim? passed).toList touched taken

section Crossing

variable
    {lexemes : List Lexeme}
    (crosses : ∀ before lexeme after, lexemes = before ++ lexeme :: after →
      Crosses rule touched taken (spell before) lexeme (spell after))

include crosses

/-- A rule that gets over every lexeme of a text reads what is left of it behind any of them. -/
theorem reads_claimsFrom (before after : List Lexeme) (parts : lexemes = before ++ after) :
    Reads (rule.claimsFrom (between (spell before) (spell after)))
      (tokenClaims (spell before) after) touched taken := by
  induction after generalizing before with
  | nil =>
      rw [spell_nil, claimsFrom_nil]
      exact reads_nil
  | cons lexeme after ih =>
      obtain ⟨asked, cut, reads⟩ := crosses before lexeme after parts
      have later := ih (before ++ [lexeme]) (by simpa using parts)
      rw [spell_append, spell_cons, spell_nil, List.append_nil] at later
      rw [spell_cons, cut]
      exact reads.append later

theorem reads_claims :
    Reads (rule.claims (spell lexemes)) (tokenClaims [] lexemes) touched taken := by
  rw [claims_eq_claimsFrom]
  exact reads_claimsFrom crosses [] lexemes rfl

end Crossing

/-! ### Going over a lexeme -/

variable {passed coming : List Char} {lexeme : Lexeme}

/-- A rule gets over a lexeme that it does not look for by asking for nothing. -/
theorem crosses_of_nothing
    (notTaken : lexeme.tokenClass? ≠ some taken)
    (cut : rule.claimsFrom (between passed (lexeme.chars ++ coming)) =
      rule.claimsFrom (between (passed ++ lexeme.chars) coming)) :
    Crosses rule touched taken passed lexeme coming := by
  refine ⟨[], cut, ⟨fun token member ofClass => ?_, by simp⟩⟩
  obtain ⟨tokenClass, isToken, rfl⟩ := Option.map_eq_some_iff.mp (Option.mem_toList.mp member)
  exact absurd (isToken.trans (congrArg some ofClass)) notTaken

/-- A rule that starts with no character of a lexeme gets over it. -/
theorem crosses_of_refused
    {test : CharTest} (starts : rule.StartsBy test)
    (notTaken : lexeme.tokenClass? ≠ some taken)
    (refused : ∀ character ∈ lexeme.chars, test character = false) :
    Crosses rule touched taken passed lexeme coming :=
  crosses_of_nothing notTaken (starts.claimsFrom_skip refused passed coming)

/-- A rule gets over a token, and asks for the token if it looks for it. -/
theorem crosses_of_token
    {tokenClass : TokenClass} {asked : List Claim}
    (isToken : lexeme.tokenClass? = some tokenClass) (touches : tokenClass ∈ touched)
    (cut : rule.claimsFrom (between passed (lexeme.chars ++ coming)) =
      asked ++ rule.claimsFrom (between (passed ++ lexeme.chars) coming))
    (asks : tokenClass = taken →
      ⟨Text.byteLength passed, Text.byteLength (passed ++ lexeme.chars), taken⟩ ∈ asked)
    (within : ∀ claim ∈ asked,
      Text.byteLength passed ≤ claim.start ∧
        claim.stop ≤ Text.byteLength (passed ++ lexeme.chars)) :
    Crosses rule touched taken passed lexeme coming := by
  refine ⟨asked, cut, ?_⟩
  rw [Lexeme.claim?, isToken, Option.map_some, Option.toList_some]
  constructor
  · refine List.forall_mem_singleton.mpr fun ofClass => ?_
    obtain rfl : tokenClass = taken := ofClass
    exact asks rfl
  · intro claim member
    exact ⟨_, List.mem_cons_self, touches, within claim member⟩

/-- A rule gets over a token by asking for its stretch. -/
theorem crosses_of_found
    {tokenClass : TokenClass}
    (isToken : lexeme.tokenClass? = some tokenClass) (touches : tokenClass ∈ touched)
    (cut : rule.claimsFrom (between passed (lexeme.chars ++ coming)) =
      ⟨Text.byteLength passed, Text.byteLength (passed ++ lexeme.chars), taken⟩ ::
        rule.claimsFrom (between (passed ++ lexeme.chars) coming)) :
    Crosses rule touched taken passed lexeme coming := by
  rw [← List.singleton_append] at cut
  refine crosses_of_token isToken touches cut (fun _ => List.mem_cons_self) ?_
  exact List.forall_mem_singleton.mpr ⟨Nat.le_refl _, Nat.le_refl _⟩

/-- A rule gets over a token that its pattern takes as a whole. -/
theorem crosses_of_prefers
    {pattern : Pattern}
    (isToken : lexeme.tokenClass? = some taken) (touches : taken ∈ touched)
    (nonempty : lexeme.chars ≠ []) (prefers : pattern.Prefers passed lexeme.chars coming) :
    Crosses (.whole pattern taken) touched taken passed lexeme coming :=
  crosses_of_found isToken touches (claimsFrom_found nonempty (prefers _ _ _ rfl))

/-- A rule whose matches go over no quote gets over a string. -/
theorem crosses_of_quoted
    {pattern : Pattern} {tokenClass : TokenClass} {content : List Char}
    (consumes : pattern.consumes = true) (refused : pattern.accepts '"' = false)
    (spelled : lexeme.chars = '"' :: (content ++ ['"']))
    (isToken : lexeme.tokenClass? = some tokenClass) (touches : tokenClass ∈ touched)
    (notTaken : tokenClass ≠ taken) :
    Crosses (.whole pattern taken) touched taken passed lexeme coming := by
  obtain ⟨front, cutFront, withinFront⟩ :=
    exists_claimsFrom_whole_mark consumes refused taken passed [] (content ++ '"' :: coming)
  obtain ⟨inside, cutInside, withinInside⟩ :=
    exists_claimsFrom_whole_mark consumes refused taken (passed ++ ['"']) content coming
  have cut :
      (whole pattern taken).claimsFrom (between passed (lexeme.chars ++ coming)) =
        (front ++ inside) ++
          (whole pattern taken).claimsFrom (between (passed ++ lexeme.chars) coming) := by
    rw [spelled]
    simpa [cutInside] using cutFront
  refine crosses_of_token isToken touches cut (fun same => absurd same notTaken) ?_
  intro claim member
  rw [spelled]
  simp only [Text.byteLength_append, Text.byteLength_cons, Text.byteLength_nil]
    at withinFront withinInside ⊢
  rcases List.mem_append.mp member with atFront | atInside
  · have bounds := withinFront claim atFront
    omega
  · have bounds := withinInside claim atInside
    omega

end

/-! ### The rules for JSON texts -/

section

variable {before after : List Lexeme} {lexeme : Lexeme}

/-- The rule for names gets over a lexeme where no name is found that is none. -/
theorem crosses_memberNames
    (regular : Regular (lexeme :: after)) (noFalseName : lexeme.opensFalseName after = false)
    (passed : List Char) :
    Crosses memberNames [.tag] .tag passed lexeme (spell after) := by
  obtain ⟨fits, regularRest⟩ := regular
  cases lexeme with
  | name content =>
      exact crosses_of_found rfl (by decide) (claimsFrom_memberNames_name fits passed)
  | string content =>
      exact
        crosses_of_nothing (by simp [Lexeme.tokenClass?])
          (claimsFrom_memberNames_string fits regularRest noFalseName passed)
  | space | structural | number | literal =>
      exact
        crosses_of_refused startsBy_memberNames (by simp [Lexeme.tokenClass?])
          fun character member => CharTest.only_eq_false (fits.ne_quote rfl character member)

/-- The rule for strings gets over every lexeme. -/
theorem crosses_strings (fits : Fits lexeme after) (passed : List Char) :
    Crosses strings [.tag, .string] .string passed lexeme (spell after) := by
  cases lexeme with
  | name content =>
      have isContent : IsContent content := by cases fits; assumption
      exact crosses_of_found rfl (by decide) (claimsFrom_strings isContent.goesOn passed)
  | string content =>
      have isContent : IsContent content := by cases fits; assumption
      exact crosses_of_found rfl (by decide) (claimsFrom_strings isContent.goesOn passed)
  | space | structural | number | literal =>
      exact
        crosses_of_refused startsBy_strings (by simp [Lexeme.tokenClass?])
          fun character member => CharTest.only_eq_false (fits.ne_quote rfl character member)

/-- A scalar does not follow a value. -/
theorem Regular.scalar_edge
    (regular : Regular (before ++ lexeme :: after))
    (scalar : lexeme.tokenClass? ≠ none) :
    ∀ character ∈ (spell before).getLast?, Text.isWordChar character = false := by
  refine regular.edge fun follows => scalar ?_
  rcases follows.head_eq with ⟨character, rfl⟩ | ⟨character, rfl⟩ <;> rfl

/-- The rule for numbers gets over every lexeme of a text. -/
theorem crosses_numbers (regular : Regular (before ++ lexeme :: after)) :
    Crosses (.whole Fragment.signedNumber .number) [.tag, .string, .number] .number
      (spell before) lexeme (spell after) := by
  obtain ⟨fits, _⟩ : Regular (lexeme :: after) := regular.of_append
  cases fits with
  | name | string =>
      exact crosses_of_quoted rfl (by decide) rfl rfl (by decide) (by decide)
  | number isNumber follows =>
      have edge := regular.scalar_edge (by simp [Lexeme.tokenClass?])
      exact
        crosses_of_prefers rfl (by decide) isNumber.ne_nil
          (prefers_signedNumber isNumber edge follows.head_mem)
  | space listed =>
      have refused : ∀ character ∈ spaces, startsNumber character = false := by decide
      exact
        crosses_of_refused (startsBy_numbers _) (by simp [Lexeme.tokenClass?])
          (List.forall_mem_singleton.mpr (refused _ listed))
  | structural listed =>
      have refused : ∀ character ∈ structurals, startsNumber character = false := by decide
      exact
        crosses_of_refused (startsBy_numbers _) (by simp [Lexeme.tokenClass?])
          (List.forall_mem_singleton.mpr (refused _ listed))
  | literal listed =>
      have refused :
          ∀ word ∈ literals, ∀ character ∈ word, startsNumber character = false := by
        decide
      exact
        crosses_of_refused (startsBy_numbers _) (by simp [Lexeme.tokenClass?])
          (refused _ listed)

/-- The rule for literal names gets over every lexeme of a text. -/
theorem crosses_literalNames (regular : Regular (before ++ lexeme :: after)) :
    Crosses (.whole literalNames .keyword) [.tag, .string, .keyword] .keyword
      (spell before) lexeme (spell after) := by
  obtain ⟨fits, _⟩ : Regular (lexeme :: after) := regular.of_append
  have nonempty := fits.chars_ne_nil
  cases fits with
  | name | string =>
      exact crosses_of_quoted rfl (by decide) rfl rfl (by decide) (by decide)
  | literal listed follows =>
      have edge := regular.scalar_edge (by simp [Lexeme.tokenClass?])
      exact
        crosses_of_prefers rfl (by decide) nonempty
          (prefers_literalNames listed edge follows.head_mem)
  | space listed =>
      have refused : ∀ character ∈ spaces, startsLiteral character = false := by decide
      exact
        crosses_of_refused (startsBy_literalNames _) (by simp [Lexeme.tokenClass?])
          (List.forall_mem_singleton.mpr (refused _ listed))
  | structural listed =>
      have refused : ∀ character ∈ structurals, startsLiteral character = false := by decide
      exact
        crosses_of_refused (startsBy_literalNames _) (by simp [Lexeme.tokenClass?])
          (List.forall_mem_singleton.mpr (refused _ listed))
  | number isNumber =>
      refine
        crosses_of_refused (startsBy_literalNames _) (by simp [Lexeme.tokenClass?])
          fun character member => ?_
      have notInNumber :
          ∀ letter ∈ "tfn".toList,
            letter.isDigit = false ∧ letter ∉ ['-', '+', '.', 'e', 'E'] := by
        decide
      rw [← Bool.not_eq_true, startsLiteral, CharTest.among_iff]
      intro isLetter
      obtain ⟨notDigit, notListed⟩ := notInNumber character isLetter
      rcases isNumber.forall_mem character member with isDigit | listed
      · rw [notDigit] at isDigit
        cases isDigit
      · exact notListed listed

end

/-! ### The spans of a text -/

theorem activeRules_json :
    Highlight.activeRules .json RuleTable.json =
      [memberNames, strings, .whole Fragment.signedNumber .number,
        .whole literalNames .keyword] := rfl

/-- What is read meets no token of a class that is not touched. -/
theorem Reads.not_meets
    {asked tokens : List Claim} {touched : List TokenClass} {taken : TokenClass}
    (reads : Reads asked tokens touched taken) (ordered : Ordered tokens)
    {token : Claim} (member : token ∈ tokens) (untouched : token.tokenClass ∉ touched) :
    ∀ prior ∈ asked, ¬ prior.Meets token := by
  intro prior priorAsked meets
  obtain ⟨other, otherMember, touches, starts, stops⟩ := reads.inside prior priorAsked
  have otherMeets : other.Meets token :=
    ⟨Nat.lt_of_le_of_lt starts meets.1, Nat.lt_of_lt_of_le meets.2 stops⟩
  rw [ordered.eq_of_meets otherMember member otherMeets] at touches
  exact untouched touches

variable {lexemes : List Lexeme}

theorem reads_memberNames
    (regular : Regular lexemes) (noFalseName : hasFalseName lexemes = false) :
    Reads (memberNames.claims (spell lexemes)) (tokenClaims [] lexemes) [.tag] .tag := by
  refine reads_claims fun before lexeme after parts => ?_
  subst parts
  exact crosses_memberNames regular.of_append (opensFalseName_eq_false noFalseName) _

theorem reads_strings (regular : Regular lexemes) :
    Reads (strings.claims (spell lexemes)) (tokenClaims [] lexemes)
      [.tag, .string] .string := by
  refine reads_claims fun before lexeme after parts => ?_
  subst parts
  exact crosses_strings regular.of_append.1 _

theorem reads_numbers (regular : Regular lexemes) :
    Reads ((whole Fragment.signedNumber .number).claims (spell lexemes)) (tokenClaims [] lexemes)
      [.tag, .string, .number] .number :=
  reads_claims fun _ _ _ parts => crosses_numbers (parts ▸ regular)

theorem reads_literalNames (regular : Regular lexemes) :
    Reads ((whole literalNames .keyword).claims (spell lexemes)) (tokenClaims [] lexemes)
      [.tag, .string, .keyword] .keyword :=
  reads_claims fun _ _ _ parts => crosses_literalNames (parts ▸ regular)

/-- Every token of a text is kept if no name is found that is none. -/
theorem mem_keptOf_json
    (regular : Regular lexemes) (noFalseName : hasFalseName lexemes = false)
    {token : Claim} (member : token ∈ tokenClaims [] lexemes) :
    token ∈
      Highlight.keptOf (Highlight.activeRules .json RuleTable.json) (spell lexemes) := by
  have ordered := ordered_tokenClaims regular []
  have nonempty := ordered.nonempty token member
  have names := reads_memberNames regular noFalseName
  have quoted := reads_strings regular
  have numbers := reads_numbers regular
  have apartFrom {rule : Rule} {touched : List TokenClass} {taken : TokenClass}
      (reads : Reads (rule.claims (spell lexemes)) (tokenClaims [] lexemes) touched taken)
      (untouched : token.tokenClass ∉ touched) :
      ∀ prior ∈ rule.claims (spell lexemes), ¬ prior.Meets token :=
    reads.not_meets ordered member untouched
  have listed := tokenClass_of_mem_tokenClaims member
  simp only [List.mem_cons, List.not_mem_nil, or_false] at listed
  rw [activeRules_json]
  -- No rule that comes before the rule of the token's class touches that class.
  rcases listed with isName | isString | isNumber | isLiteral
  · exact Highlight.mem_keptOf_of_mem_claims_head (names.asks token member isName) nonempty
  · have apart : ∀ earlier ∈ [memberNames], ∀ prior ∈ earlier.claims (spell lexemes),
        ¬ prior.Meets token :=
      List.forall_mem_singleton.mpr (apartFrom names (by rw [isString]; decide))
    exact
      Highlight.mem_keptOf_of_apart [memberNames] strings [_, _]
        (quoted.asks token member isString) nonempty apart
  · have apart : ∀ earlier ∈ [memberNames, strings],
        ∀ prior ∈ earlier.claims (spell lexemes), ¬ prior.Meets token := by
      simpa using
        ⟨apartFrom names (by rw [isNumber]; decide),
          apartFrom quoted (by rw [isNumber]; decide)⟩
    exact
      Highlight.mem_keptOf_of_apart [memberNames, strings] _ [_]
        (numbers.asks token member isNumber) nonempty apart
  · have apart : ∀ earlier ∈ [memberNames, strings, .whole Fragment.signedNumber .number],
        ∀ prior ∈ earlier.claims (spell lexemes), ¬ prior.Meets token := by
      simpa using
        ⟨apartFrom names (by rw [isLiteral]; decide),
          apartFrom quoted (by rw [isLiteral]; decide),
          apartFrom numbers (by rw [isLiteral]; decide)⟩
    exact
      Highlight.mem_keptOf_of_apart
        [memberNames, strings, .whole Fragment.signedNumber .number] _ []
        ((reads_literalNames regular).asks token member isLiteral) nonempty apart

/-- What is kept of a text lies inside its tokens if no name is found that is none. -/
theorem exists_token_of_mem_keptOf_json
    (regular : Regular lexemes) (noFalseName : hasFalseName lexemes = false)
    {claim : Claim}
    (kept : claim ∈
      Highlight.keptOf (Highlight.activeRules .json RuleTable.json) (spell lexemes)) :
    ∃ token ∈ tokenClaims [] lexemes,
      token.start ≤ claim.start ∧ claim.stop ≤ token.stop := by
  obtain ⟨rule, listed, asked⟩ := Highlight.mem_candidates_of_mem_keptOf kept
  have within {touched : List TokenClass} {taken : TokenClass}
      (reads : Reads (rule.claims (spell lexemes)) (tokenClaims [] lexemes) touched taken) :
      ∃ token ∈ tokenClaims [] lexemes,
        token.start ≤ claim.start ∧ claim.stop ≤ token.stop := by
    obtain ⟨token, member, _, bounds⟩ := reads.inside claim asked
    exact ⟨token, member, bounds⟩
  rw [activeRules_json] at listed
  simp only [List.mem_cons, List.not_mem_nil, or_false] at listed
  rcases listed with rfl | rfl | rfl | rfl
  · exact within (reads_memberNames regular noFalseName)
  · exact within (reads_strings regular)
  · exact within (reads_numbers regular)
  · exact within (reads_literalNames regular)

/-- The tokens of a text are the stretches that are kept if no name is found that is none. -/
theorem mergeSort_keptOf_json
    (regular : Regular lexemes) (noFalseName : hasFalseName lexemes = false) :
    (Highlight.keptOf (Highlight.activeRules .json RuleTable.json) (spell lexemes)).mergeSort
      startsBy = tokenClaims [] lexemes :=
  Highlight.mergeSort_keptOf_eq (ordered_tokenClaims regular [])
    (fun _ member => mem_keptOf_json regular noFalseName member)
    (fun _ kept => exists_token_of_mem_keptOf_json regular noFalseName kept)

/-- If what stands between two strings looks like a name, then a name is found that starts inside
a string. -/
theorem exists_false_name
    (regular : Regular lexemes) (falseName : hasFalseName lexemes = true) (passed : List Char) :
    ∃ before content after,
      lexemes = before ++ .string content :: after ∧
        ∃ claim ∈ memberNames.claimsFrom (between passed (spell lexemes)),
          claim.start = Text.byteLength (passed ++ spell before ++ '"' :: content) ∧
            claim.start < claim.stop := by
  induction lexemes generalizing passed with
  | nil => cases falseName
  | cons lexeme rest ih =>
      cases here : lexeme.opensFalseName rest with
      | true =>
          cases lexeme with
          | string content =>
              obtain ⟨claim, asked, starts, nonempty⟩ :=
                exists_mem_claimsFrom_memberNames regular.1 regular.2 here passed
              exact
                ⟨[], content, rest, rfl, claim, asked, by simpa using starts, nonempty⟩
          | _ => cases here
      | false =>
          have later : hasFalseName rest = true := by
            simpa [hasFalseName, here] using falseName
          obtain ⟨asked, cut, _⟩ := crosses_memberNames regular here passed
          obtain ⟨before, content, after, parts, claim, member, starts, nonempty⟩ :=
            ih regular.2 later (passed ++ lexeme.chars)
          refine
            ⟨lexeme :: before, content, after, by rw [parts, List.cons_append], claim, ?_,
              by simpa using starts, nonempty⟩
          rw [spell_cons, cut]
          exact List.mem_append_right _ member

/--
The spans of a JSON text are its names, strings, numbers and literal names, unless what stands
between two strings looks like a name: a string that is a value comes before another string on the
same line, and the other one opens with a colon, perhaps after blanks.
-/
theorem spans?_json_eq_tokens_iff
    {text : String} (isText : IsText lexemes) (spelled : text.toList = spell lexemes) :
    Highlight.spans? .json text (fun _ => false) = some (tokens lexemes) ↔
      hasFalseName lexemes = false := by
  have regular := isText.regular
  constructor
  · intro given
    by_contra falseName
    rw [Bool.not_eq_false] at falseName
    obtain ⟨before, content, after, parts, claim, asked, starts, nonempty⟩ :=
      exists_false_name regular falseName []
    obtain ⟨spans, same, kept⟩ :=
      Highlight.exists_spans?_mem_iff (rfl : Language.json.ruleTable? = some _) text
    rw [given, Option.some.injEq] at same
    subst same
    have claimKept :
        claim ∈ Highlight.keptOf (Highlight.activeRules .json RuleTable.json) text.toList := by
      rw [spelled, activeRules_json]
      exact Highlight.mem_keptOf_of_mem_claims_head asked nonempty
    have member := (kept _).mpr ⟨claim, claimKept, rfl⟩
    rw [parts] at member
    refine ne_start_of_mem_tokens member ?_
    have whole : text.toList = spell before ++ '"' :: content ++ '"' :: spell after := by
      rw [spelled, parts]
      simp [Lexeme.chars]
    rw [Claim.toSpan, starts, whole, List.nil_append]
    exact Text.charactersBefore_append _ _
  · intro noFalseName
    rw [Highlight.spans?_never rfl, spelled, mergeSort_keptOf_json regular noFalseName,
      map_toSpan_tokenClaims (List.nil_append _).symm]
    rfl

/-- An object of two members, an array with a number and a string, and null. -/
theorem spans?_json_eq_tokens_iff_object :
    ∃ lexemes,
      IsText lexemes ∧
      "\x7b\"a\":[-1.5e3,\"\\\":\"],\"b\":null\x7d".toList = spell lexemes ∧
      hasFalseName lexemes = false ∧
      Highlight.spans? .json "\x7b\"a\":[-1.5e3,\"\\\":\"],\"b\":null\x7d" (fun _ => false) =
        some
          [⟨1, 4, .tag⟩, ⟨6, 12, .number⟩, ⟨13, 18, .string⟩, ⟨20, 23, .tag⟩,
            ⟨24, 28, .keyword⟩] := by
  have mark := isStructural_singleton
  have letter {character : Char} (allowed : isUnescaped character = true) :
      IsContent [character] :=
    IsContent.unescaped allowed IsContent.nil
  have number : IsNumber ['-', '1', '.', '5', 'e', '3'] :=
    @IsNumber.parts ['-'] ['1'] ['.', '5'] ['e', '3'] (by decide)
      (IsInteger.positive rfl (by decide) (by simp))
      (IsFraction.present ⟨by decide, by decide⟩)
      (@IsExponent.present 'e' [] ['3'] (by decide) (by decide) ⟨by decide, by decide⟩)
  have escaped : IsContent ['\\', '"', ':'] :=
    IsContent.escaped (by decide) (letter (by decide))
  have elements :=
    Derives.moreElements (Derives.number number) (mark ',')
      (Derives.lastElement (Derives.string escaped))
  have first :=
    Derives.member (letter (by decide : isUnescaped 'a' = true)) (mark ':')
      (Derives.array (mark '[') elements (mark ']'))
  have second :=
    Derives.member (letter (by decide : isUnescaped 'b' = true)) (mark ':')
      (Derives.literal (by decide : ['n', 'u', 'l', 'l'] ∈ literals))
  have object :=
    Derives.object (mark '{') (Derives.moreMembers first (mark ',') (Derives.lastMember second))
      (mark '}')
  exact ⟨_, object.isText, rfl, rfl, (spans?_json_eq_tokens_iff object.isText rfl).mpr rfl⟩

/-- Between two strings of an array the comma is taken for a name, and neither of the strings is
found. -/
theorem spans?_json_false_name :
    ∃ lexemes,
      IsText lexemes ∧ "[\"a\",\":\"]".toList = spell lexemes ∧
      tokens lexemes = [⟨1, 4, .string⟩, ⟨5, 8, .string⟩] ∧
      Highlight.spans? .json "[\"a\",\":\"]" (fun _ => false) = some [⟨3, 6, .tag⟩] := by
  have mark := isStructural_singleton
  have letter {character : Char} (allowed : isUnescaped character = true) :
      Derives .value [.string [character]] :=
    Derives.string (IsContent.unescaped allowed IsContent.nil)
  have elements :=
    Derives.moreElements (letter (by decide : isUnescaped 'a' = true)) (mark ',')
      (Derives.lastElement (letter (by decide : isUnescaped ':' = true)))
  have array := Derives.array (mark '[') elements (mark ']')
  exact ⟨_, array.isText, rfl, rfl, by decide⟩

end SourcePreview.JsonText
