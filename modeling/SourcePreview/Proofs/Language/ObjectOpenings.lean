import SourcePreview.Proofs.Language.Sampling
import SourcePreview.Proofs.Pattern.QuotedStrings

/-!
# Texts that open with a JSON object

A text that goes, behind its byte order marks, from an opening brace over a quoted key to a colon
has the shape of JSON, whatever the key says and whatever follows the colon.  The pattern for this
beginning takes each run of blank characters and the key as a whole, and the sample that it is tried
on holds the beginning if this has no more than the bytes of a sample.
-/

namespace SourcePreview.Language

open Pattern Cursor Text

/-- Whether all characters are blank. -/
def AreBlank (characters : List Char) : Prop :=
  ∀ character ∈ characters, isBlank character = true

instance (characters : List Char) : Decidable (AreBlank characters) :=
  List.decidableBAll _ characters

/-- The opening of an object, perhaps as the first item of an array. -/
inductive Opens : List Char → Prop where
  | object : Opens ['{']
  | item {gap : List Char} (areBlank : AreBlank gap) : Opens ('[' :: (gap ++ ['{']))

/-- The beginning of a text up to the colon behind the first key of an object. -/
inductive OpensObject : List Char → Prop where
  | intro {lead opening gap key behind : List Char}
      (leadBlank : AreBlank lead) (opens : Opens opening) (gapBlank : AreBlank gap)
      (goesOn : GoesOn key) (behindBlank : AreBlank behind) :
      OpensObject (lead ++ (opening ++ (gap ++ ('"' :: (key ++ ['"']) ++ (behind ++ [':'])))))

/-- The first character is blank or an opening bracket. -/
theorem OpensObject.exists_cons
    {start : List Char} (opensObject : OpensObject start) :
    ∃ first others, start = first :: others ∧ (isBlank first = true ∨ first ∈ ['{', '[']) := by
  obtain ⟨leadBlank, opens, -, -, -⟩ := opensObject
  rename_i lead opening _ _ _
  cases lead with
  | nil =>
      cases opens with
      | object => exact ⟨_, _, rfl, .inr (by simp)⟩
      | item => exact ⟨_, _, rfl, .inr (by simp)⟩
  | cons first lead => exact ⟨first, _, rfl, .inl (leadBlank first (by simp))⟩

/-! ### The pattern -/

/-- The pattern as a sequence of its parts. -/
theorem jsonObjectStart_eq :
    jsonObjectStart =
      .seq (.anchor .textStart)
        (.seq (.many .blank)
          (.seq
            (.alt (literal "\x7b")
              (.next (.only '[') (.seq (.many .blank) (literal "\x7b"))))
            (.seq (.many .blank)
              (Fragment.doubleQuoted ++ .seq (.many .blank) (literal ":"))))) := rfl

section

variable {gap : List Char} (areBlank : AreBlank gap) (passed : List Char)

include areBlank

/-- Blank characters are taken up to one that is not blank. -/
theorem prefers_blanks
    {mark : Char} (visible : isBlank mark = false) (ahead : List Char) :
    Prefers (.many .blank) passed gap (mark :: ahead) :=
  prefers_many areBlank (CharTest.refuses_cons visible ahead)

/-- Blank characters and a mark. -/
theorem prefers_blanks_literal
    {text : String} {mark : Char} (isMark : text.toList = [mark])
    (visible : isBlank mark = false) (ahead : List Char) :
    Prefers (.seq (.many .blank) (literal text)) passed (gap ++ [mark]) ahead :=
  Prefers.seq (prefers_blanks areBlank passed visible ahead) (isMark ▸ prefers_literal text)

end

theorem Opens.prefers {opening : List Char} (opens : Opens opening) (passed ahead : List Char) :
    Prefers
      (.alt (literal "\x7b") (.next (.only '[') (.seq (.many .blank) (literal "\x7b"))))
      passed opening ahead := by
  cases opens with
  | object => exact Prefers.alt_left (prefers_literal "\x7b") _
  | item areBlank =>
      have noBrace : CharTest.only '{' '[' = false := by decide
      refine Prefers.alt_right (fails_next (CharTest.refuses_cons noBrace _)) ?_
      exact Prefers.next (by decide) (prefers_blanks_literal areBlank _ rfl (by decide) ahead)

/-- The pattern fits at the beginning of a text that opens with an object. -/
theorem OpensObject.fitsAtStart
    {start : List Char} (opensObject : OpensObject start) (rest : List Char) :
    jsonObjectStart.fitsAtStart (start ++ rest) = true := by
  obtain ⟨leadBlank, opens, gapBlank, goesOn, behindBlank⟩ := opensObject
  rename_i lead opening gap key behind
  have colon (passed : List Char) :
      Prefers (.seq (.many .blank) (literal ":")) passed (behind ++ [':']) rest :=
    prefers_blanks_literal behindBlank passed rfl (by decide) rest
  have keyed (passed : List Char) :
      Prefers (Fragment.doubleQuoted ++ .seq (.many .blank) (literal ":")) passed
        ('"' :: (key ++ ['"']) ++ (behind ++ [':'])) rest :=
    Prefers.append (Fragment.endsAt_doubleQuoted goesOn passed _).prefers (colon _)
  have inside (passed : List Char) :
      Prefers
        (.seq (.many .blank) (Fragment.doubleQuoted ++ .seq (.many .blank) (literal ":")))
        passed (gap ++ ('"' :: (key ++ ['"']) ++ (behind ++ [':']))) rest :=
    Prefers.seq (prefers_blanks gapBlank passed (by decide) _) (keyed _)
  have opened (passed : List Char) := Prefers.seq (opens.prefers passed _) (inside _)
  have visible :
      CharTest.Refuses .blank
        (opening ++ (gap ++ ('"' :: (key ++ ['"']) ++ (behind ++ [':']))) ++ rest) := by
    cases opens with
    | object => exact CharTest.refuses_cons (by decide) _
    | item => exact CharTest.refuses_cons (by decide) _
  have whole :
      Prefers jsonObjectStart []
        (lead ++ (opening ++ (gap ++ ('"' :: (key ++ ['"']) ++ (behind ++ [':']))))) rest := by
    rw [jsonObjectStart_eq]
    exact Prefers.anchor_seq rfl (Prefers.seq (prefers_many leadBlank visible) (opened _))
  have ends := whole Cursor some _ rfl
  simp only [Pattern.fitsAtStart, Pattern.end?, start_eq_between, ends, Option.isSome_some]

/-! ### The text -/

/-- A text without a hash in front calls no interpreter. -/
theorem ofShebang?_eq_none {text : String} (unmarked : text.toList.head? ≠ some '#') :
    ofShebang? text = none := by
  rw [ofShebang?]
  split
  case h_1 called marked => exact (unmarked (by rw [marked]; rfl)).elim
  case h_2 => rfl

/-- The sample of a text goes on at least as far as a beginning behind the byte order marks that
has no more bytes than a sample. -/
theorem exists_sample?_eq_append
    {first : Char} (isNoMark : first ≠ '\ufeff') {others : List Char}
    (fits : byteLength (first :: others) ≤ sampleBytes) (marks : Nat) (rest : List Char) :
    ∃ more,
      sample? (String.ofList (List.replicate marks '\ufeff' ++ (first :: others ++ rest))) =
        some (first :: others ++ more) := by
  have kept :
      (List.replicate marks '\ufeff' ++ (first :: others ++ rest)).dropWhile (· == '\ufeff') =
        first :: others ++ rest := by
    rw [List.dropWhile_append_of_pos (by simp), List.cons_append,
      List.dropWhile_cons_of_neg (by simpa using isNoMark)]
  obtain ⟨beginning, found, isLongest⟩ :=
    exists_beginning? sampleBytes (String.ofList (first :: others ++ rest))
  rw [String.toList_ofList] at isLongest
  obtain ⟨more, parts⟩ := isLongest.longest _ (List.prefix_append _ rest) fits
  refine ⟨more, ?_⟩
  rw [sample?, String.toList_ofList, kept, found, Option.map_some, parts]

/-- A text that opens with an object within the bytes of a sample, behind any number of byte order
marks, has the shape of JSON, and its file is one of JSON unless its name tells otherwise. -/
theorem ofShape?_and_classify_of_opensObject
    (marks : Nat) {start : List Char} (opensObject : OpensObject start)
    (fits : byteLength start ≤ 512) (rest : List Char) :
    ofShape? (String.ofList (List.replicate marks '\ufeff' ++ (start ++ rest))) = some .json ∧
      ∀ path,
        ofPath? path = none →
          classify path
              (some (String.ofList (List.replicate marks '\ufeff' ++ (start ++ rest)))) =
            .json := by
  obtain ⟨first, others, rfl, begins⟩ := opensObject.exists_cons
  have isNoMark : first ≠ '\ufeff' := by
    rintro rfl
    exact absurd begins (by decide)
  have isNoHash : first ≠ '#' := by
    rintro rfl
    exact absurd begins (by decide)
  have shaped :
      ofShape? (String.ofList (List.replicate marks '\ufeff' ++ (first :: others ++ rest))) =
        some .json := by
    obtain ⟨more, sampled⟩ := exists_sample?_eq_append isNoMark fits marks rest
    rw [ofShape?, sampled, Option.bind_some, shapeOf?, opensObject.fitsAtStart more]
    rfl
  refine ⟨shaped, fun path unnamed => ?_⟩
  have calls :
      ofShebang? (String.ofList (List.replicate marks '\ufeff' ++ (first :: others ++ rest))) =
        none := by
    refine ofShebang?_eq_none ?_
    rw [String.toList_ofList]
    cases marks with
    | zero => simpa using isNoHash
    | succ marks => simp [List.replicate_succ]
  simp only [classify, unnamed, calls, shaped]
  rfl

/-- A key that looks like the first line of a script and like a page and has an escaped quote. -/
def sampleKey : List Char :=
  "#!/bin/sh <html> ".toList ++ ['\\', '"', 'é']

/-- The first item of an array, among blank characters that are not ASCII. -/
def sampleStart : List Char :=
  "\u3000\n".toList ++
    (('[' :: ("\u2028".toList ++ ['{'])) ++
      (" ".toList ++ ('"' :: (sampleKey ++ ['"']) ++ ("\t".toList ++ [':']))))

/-- Whatever the key of the item looks like, the text is one of JSON. -/
theorem ofShape?_and_classify_of_opensObject_sample :
    OpensObject sampleStart ∧ byteLength sampleStart ≤ 512 ∧ ofPath? (.ofString "notes") = none ∧
      classify (.ofString "notes")
          (some (String.ofList (List.replicate 2 '\ufeff' ++ (sampleStart ++ ['<'])))) =
        .json := by
  -- With `all`, since a statement with `∀` may be decided by going through all characters.
  have plain :
      "#!/bin/sh <html> ".toList.all (fun character =>
        character ≠ '"' ∧ character ≠ '\\' ∧ character ≠ '\n') = true := by
    decide
  have goesOn : GoesOn sampleKey :=
    GoesOn.append_plain
      (fun character member => of_decide_eq_true (List.all_eq_true.mp plain character member))
      (.pair (by decide) (.plain (by decide) (by decide) (by decide) .nil))
  have opensObject : OpensObject sampleStart :=
    .intro (by decide) (.item (by decide)) (by decide) goesOn (by decide)
  have fits : byteLength sampleStart ≤ 512 := by decide +kernel
  have unnamed : ofPath? (.ofString "notes") = none := by decide +kernel
  exact
    ⟨opensObject, fits, unnamed,
      (ofShape?_and_classify_of_opensObject 2 opensObject fits ['<']).2 _ unnamed⟩

end SourcePreview.Language
