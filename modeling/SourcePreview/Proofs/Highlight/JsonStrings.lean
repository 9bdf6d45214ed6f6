import SourcePreview.Highlight.Rule
import SourcePreview.Proofs.Json.Lexemes
import SourcePreview.Proofs.Pattern.QuotedStrings
import SourcePreview.Proofs.Pattern.Scanning

/-!
# Names and strings of JSON texts

One rule finds every string of a text.  Another looks for member names: strings in front of a
colon.  It finds each name, and it finds nothing at a string that is a value; but then it is tried
at the quote that closes this string.  From there on the text up to the next quote looks like a
string, and if the next string starts with a colon, it looks like a name.
-/

namespace SourcePreview.JsonText

open Cursor Pattern Rule

/-- The rule that finds the names of members. -/
def memberNames : Rule :=
  .inner .empty Fragment.doubleQuoted (blanks ++ literal ":") .tag

/-- The rule that finds strings. -/
def strings : Rule :=
  .firstOf [(Fragment.doubleQuoted, .string)]

/-! ### Strings -/

/-- A string on one line goes on over the content of a string of a text. -/
theorem IsContent.goesOn {content : List Char} (isContent : IsContent content) :
    GoesOn content := by
  induction isContent with
  | nil => exact GoesOn.nil
  | @unescaped character rest allowed _ ih =>
      simp only [isUnescaped, Bool.and_eq_true, decide_eq_true_eq, bne_iff_ne] at allowed
      refine GoesOn.plain allowed.1.2 allowed.2 ?_ ih
      rintro rfl
      exact absurd allowed.1.1 (by decide)
  | @escaped letter rest allowed _ ih =>
      have inLine :
          ∀ letter ∈ ['"', '\\', '/', 'b', 'f', 'n', 'r', 't'], letter ≠ '\n' := by decide
      exact GoesOn.pair (inLine letter allowed) ih
  | @codePoint digits rest _ hexadecimal _ ih =>
      refine GoesOn.pair (by decide) (ih.append_plain fun digit member => ?_)
      have isHexDigit := hexadecimal digit member
      refine ⟨?_, ?_, ?_⟩ <;> rintro rfl <;> revert isHexDigit <;> decide

theorem IsPlain.goesOn {run : List Char} (plain : IsPlain run) : GoesOn run := by
  simpa using GoesOn.nil.append_plain plain

section

variable {run coming : List Char} (goesOn : GoesOn run) (passed : List Char)

theorem startsBy_strings : strings.StartsBy (.only '"') := by
  intro passed coming refused
  have fails : Fails Fragment.doubleQuoted passed coming := by
    refine Fragment.fails_doubleQuoted (fun character first => ?_) passed
    simpa [CharTest.only] using refused character first
  simp [strings, Rule.find, fails _]

theorem startsBy_memberNames : memberNames.StartsBy (.only '"') := by
  intro passed coming refused
  have fails : Fails Fragment.doubleQuoted passed coming := by
    refine Fragment.fails_doubleQuoted (fun character first => ?_) passed
    simpa [CharTest.only] using refused character first
  exact fails _ _

include goesOn

/-- A string is found as a whole. -/
theorem claimsFrom_strings :
    strings.claimsFrom (between passed ('"' :: (run ++ ['"']) ++ coming)) =
      ⟨Text.byteLength passed, Text.byteLength (passed ++ '"' :: (run ++ ['"'])), .string⟩ ::
        strings.claimsFrom (between (passed ++ '"' :: (run ++ ['"'])) coming) := by
  have ends := Fragment.endsAt_doubleQuoted goesOn passed coming
  refine claimsFrom_found (by simp) ?_
  simp only [strings, Rule.find, List.findSome?_cons, ends _]
  rfl

/-- At a string the rule for names looks at what follows the string. -/
theorem find_memberNames :
    memberNames.find (between passed ('"' :: (run ++ ['"']) ++ coming)) =
      (blanks ++ literal ":").firstMatch (between (passed ++ '"' :: (run ++ ['"'])) coming)
        fun resume =>
          some (⟨Text.byteLength passed, Text.byteLength (passed ++ '"' :: (run ++ ['"'])), .tag⟩,
            resume) :=
  Fragment.endsAt_doubleQuoted goesOn passed coming _ _

end

/-! ### Colons behind strings -/

theorem colon_eq : blanks ++ literal ":" = .seq (.many .blank) (.char (.only ':')) := rfl

/-- Blanks are passed on the way to a colon. -/
theorem firstMatch_colon
    {α : Type} {blank ahead : List Char}
    (allBlank : ∀ character ∈ blank, Text.isBlank character = true)
    (stops : CharTest.Refuses .blank ahead)
    (passed : List Char) (rest : Cursor → Option α) :
    (blanks ++ literal ":").firstMatch (between passed (blank ++ ahead)) rest =
      (Pattern.char (.only ':')).firstMatch (between (passed ++ blank) ahead) rest := by
  rw [colon_eq, firstMatch]
  refine firstMatch_many_of_stuck allBlank stops fun front character back isBlank => ?_
  refine fails_next (CharTest.refuses_cons (CharTest.only_eq_false ?_) _) _ _
  rintro rfl
  cases isBlank

/-- Where a text opens with a colon, a match ends behind the colon. -/
theorem exists_endsAt_colon
    {coming : List Char} (opens : opensWithColon coming = true) (passed : List Char) :
    ∃ before behind,
      coming = before ++ behind ∧ (∀ character ∈ before, CharTest.only '"' character = false) ∧
        (blanks ++ literal ":").EndsAt passed before behind := by
  obtain ⟨blank, ahead, rfl, allBlank, stops, decides⟩ := exists_blank_append coming
  rw [decides, beq_iff_eq] at opens
  obtain ⟨behind, rfl⟩ := List.head?_eq_some_iff.mp opens
  have isColon : CharTest.only ':' ':' = true := by decide
  refine ⟨blank ++ [':'], behind, by simp, ?_, fun α rest => ?_⟩
  · rw [List.forall_mem_append]
    refine ⟨fun character member => ?_, by decide⟩
    have isBlank := allBlank character member
    refine CharTest.only_eq_false ?_
    rintro rfl
    cases isBlank
  · rw [List.append_assoc, List.singleton_append, firstMatch_colon allBlank stops, Pattern.char,
      firstMatch_next_cons, if_pos isColon, firstMatch, List.append_assoc]

/-- Where a text does not open with a colon, there is no match. -/
theorem fails_colon
    {coming : List Char} (opens : opensWithColon coming = false) (passed : List Char) :
    (blanks ++ literal ":").Fails passed coming := by
  intro α rest
  obtain ⟨blank, ahead, rfl, allBlank, stops, decides⟩ := exists_blank_append coming
  rw [decides, beq_eq_false_iff_ne] at opens
  rw [firstMatch_colon allBlank stops]
  refine fails_next (fun character first => CharTest.only_eq_false ?_) _ _
  rintro rfl
  exact opens first

/-! ### Names -/

section

variable {run coming : List Char}

/-- A string in front of a colon is found as a name. -/
theorem claimsFrom_memberNames_of_colon
    (goesOn : GoesOn run) (opens : opensWithColon coming = true) (passed : List Char) :
    memberNames.claimsFrom (between passed ('"' :: (run ++ ['"']) ++ coming)) =
      ⟨Text.byteLength passed, Text.byteLength (passed ++ '"' :: (run ++ ['"'])), .tag⟩ ::
        memberNames.claimsFrom (between (passed ++ '"' :: (run ++ ['"'])) coming) := by
  obtain ⟨before, behind, rfl, noMark, ends⟩ :=
    exists_endsAt_colon opens (passed ++ '"' :: (run ++ ['"']))
  rw [startsBy_memberNames.claimsFrom_skip noMark]
  have finds := (find_memberNames goesOn passed).trans (ends _ _)
  rw [← List.append_assoc] at finds ⊢
  rw [List.append_assoc passed] at finds
  rw [claimsFrom_found (by simp) finds, List.append_assoc passed]

/-- A string that no colon follows is not found as a name. -/
theorem find_memberNames_eq_none
    (goesOn : GoesOn run) (opens : opensWithColon coming = false) (passed : List Char) :
    memberNames.find (between passed ('"' :: (run ++ ['"']) ++ coming)) = none :=
  (find_memberNames goesOn passed).trans (fails_colon opens _ _ _)

/-- Inside a string that no colon follows no name is found: a quote with a backslash leads to the
same end as the opening one. -/
theorem claimsFrom_memberNames_inside
    (goesOn : GoesOn run) (opens : opensWithColon coming = false) (passed : List Char) :
    memberNames.claimsFrom (between passed (run ++ '"' :: coming)) =
      memberNames.claimsFrom (between (passed ++ run) ('"' :: coming)) := by
  induction goesOn generalizing passed with
  | nil => simp
  | @plain character rest notMark _ _ _ ih =>
      have notFound :=
        startsBy_memberNames passed (character :: (rest ++ '"' :: coming))
          (CharTest.refuses_cons (CharTest.only_eq_false notMark) _)
      refine (claimsFrom_step notFound).trans ?_
      rw [ih, List.append_assoc, List.singleton_append]
  | @pair character rest _ goesOn ih =>
      have notFound :=
        startsBy_memberNames passed ('\\' :: character :: (rest ++ '"' :: coming))
          (CharTest.refuses_cons (by decide) _)
      have notFoundBehind :
          memberNames.find (between (passed ++ ['\\']) (character :: (rest ++ '"' :: coming))) =
            none := by
        by_cases isMark : character = '"'
        · subst isMark
          simpa using find_memberNames_eq_none goesOn opens (passed ++ ['\\'])
        · exact
            startsBy_memberNames _ _ (CharTest.refuses_cons (CharTest.only_eq_false isMark) _)
      refine (claimsFrom_step notFound).trans ((claimsFrom_step notFoundBehind).trans ?_)
      rw [ih]
      simp

/-- The rule for names gets to the closing quote of a string that no colon follows. -/
theorem claimsFrom_memberNames_closing
    (goesOn : GoesOn run) (opens : opensWithColon coming = false) (passed : List Char) :
    memberNames.claimsFrom (between passed ('"' :: (run ++ ['"']) ++ coming)) =
      memberNames.claimsFrom (between (passed ++ '"' :: run) ('"' :: coming)) := by
  have opening := find_memberNames_eq_none goesOn opens passed
  have inside := claimsFrom_memberNames_inside goesOn opens (passed ++ ['"'])
  refine (claimsFrom_step opening).trans ?_
  simpa using inside

end

variable {content : List Char} {rest : List Lexeme}

/-- A name is found as a whole. -/
theorem claimsFrom_memberNames_name
    (fits : Fits (.name content) rest) (passed : List Char) :
    memberNames.claimsFrom (between passed ((Lexeme.name content).chars ++ spell rest)) =
      ⟨Text.byteLength passed, Text.byteLength (passed ++ (Lexeme.name content).chars), .tag⟩ ::
        memberNames.claimsFrom
          (between (passed ++ (Lexeme.name content).chars) (spell rest)) := by
  have opens := fits.opensWithColon_eq_true
  cases fits with
  | name isContent => exact claimsFrom_memberNames_of_colon isContent.goesOn opens passed

/-- At a string that is a value the rule for names gets to the closing quote. -/
theorem claimsFrom_memberNames_string_closing
    (fits : Fits (.string content) rest) (passed : List Char) :
    memberNames.claimsFrom (between passed ((Lexeme.string content).chars ++ spell rest)) =
      memberNames.claimsFrom (between (passed ++ '"' :: content) ('"' :: spell rest)) := by
  cases fits with
  | string isContent follows =>
      exact
        claimsFrom_memberNames_closing isContent.goesOn follows.opensWithColon_eq_false passed

/-- A string that is a value is passed if what follows it on its line does not look like a
name. -/
theorem claimsFrom_memberNames_string
    (fits : Fits (.string content) rest) (regular : Regular rest)
    (noColon : leadsToColon rest = false) (passed : List Char) :
    memberNames.claimsFrom (between passed ((Lexeme.string content).chars ++ spell rest)) =
      memberNames.claimsFrom
        (between (passed ++ (Lexeme.string content).chars) (spell rest)) := by
  have closing :
      memberNames.find (between (passed ++ '"' :: content) ('"' :: spell rest)) = none := by
    cases regular.line with
    | ends spelled plain lineEnd _ =>
        rw [spelled]
        exact Fragment.fails_doubleQuoted_unclosed plain.goesOn lineEnd _ _ _
    | @opens run other more spelled plain colon =>
        have opens : opensWithColon (other ++ '"' :: more) = false := by
          rw [opensWithColon_append_quote, ← colon, noColon]
        have notFound := find_memberNames_eq_none plain.goesOn opens (passed ++ '"' :: content)
        rw [spelled]
        simpa using notFound
  rw [claimsFrom_memberNames_string_closing fits, claimsFrom_step closing]
  simp [Lexeme.chars]

/-- Behind a string that is a value a name is found that is none, if what follows it on its line
looks like one. -/
theorem exists_mem_claimsFrom_memberNames
    (fits : Fits (.string content) rest) (regular : Regular rest)
    (colon : leadsToColon rest = true) (passed : List Char) :
    ∃ claim ∈
        memberNames.claimsFrom (between passed ((Lexeme.string content).chars ++ spell rest)),
      claim.start = Text.byteLength (passed ++ '"' :: content) ∧ claim.start < claim.stop := by
  rw [claimsFrom_memberNames_string_closing fits]
  cases regular.line with
  | ends _ _ _ noColon =>
      rw [noColon] at colon
      cases colon
  | @opens run other more spelled plain sameColon =>
      have opens : opensWithColon (other ++ '"' :: more) = true := by
        rw [opensWithColon_append_quote, ← sameColon, colon]
      have found :=
        claimsFrom_memberNames_of_colon plain.goesOn opens (passed ++ '"' :: content)
      have bracketed :
          '"' :: spell rest = '"' :: (run ++ ['"']) ++ (other ++ '"' :: more) := by
        simp [spelled]
      rw [bracketed, found]
      have longer :
          Text.byteLength (passed ++ '"' :: content) <
            Text.byteLength (passed ++ '"' :: content ++ '"' :: (run ++ ['"'])) := by
        have positive := Char.utf8Size_pos '"'
        rw [Text.byteLength_append _ ('"' :: (run ++ ['"'])), Text.byteLength_cons]
        omega
      exact ⟨_, List.mem_cons_self, rfl, longer⟩

end SourcePreview.JsonText
