import SourcePreview.Proofs.Pattern.Scanning
import SourcePreview.Proofs.Text.CaseFolding
import Mathlib.Data.List.Forall2

/-!
# Whole words

A pattern for a list of words tries them in the order of the list, between two places where a word
starts or ends.  A word of the list that is the beginning of another one may fit first, but then no
word ends behind it.  So the pattern matches runs of word characters only as a whole, whatever the
order of the list, and a scan reports exactly the runs that the list has, or has up to the case of
letters.
-/

namespace SourcePreview

namespace Text

/-- Whether a stretch of a text is a run of word characters that cannot be made longer. -/
structure IsWordRun (before run after : List Char) : Prop where
  nonempty : run ≠ []
  inside : ∀ character ∈ run, isWordChar character = true
  starts : ∀ character ∈ before.getLast?, isWordChar character = false
  stops : ∀ character ∈ after.head?, isWordChar character = false

instance (before run after : List Char) : Decidable (IsWordRun before run after) :=
  decidable_of_iff
    (run.isEmpty = false ∧ run.all isWordChar = true ∧
      before.getLast?.any isWordChar = false ∧ after.head?.any isWordChar = false)
    (by
      rw [List.isEmpty_eq_false_iff, List.all_eq_true, Option.any_eq_false, Option.any_eq_false]
      exact
        ⟨fun ⟨nonempty, inside, starts, stops⟩ => ⟨nonempty, inside, starts, stops⟩,
          fun isRun => ⟨isRun.nonempty, isRun.inside, isRun.starts, isRun.stops⟩⟩)

/-- Of the runs that start at a place one cannot go on longer than another. -/
theorem IsWordRun.length_le
    {before run after other behind : List Char}
    (isRun : IsWordRun before run after) (isOther : IsWordRun before other behind)
    (same : run ++ after = other ++ behind) :
    other.length ≤ run.length := by
  rcases cut_inside_or_behind same with ⟨beyond, nonempty, rfl, rfl⟩ | ⟨further, rfl, rfl⟩
  · obtain ⟨character, beyond, rfl⟩ := List.exists_cons_of_ne_nil nonempty
    have isWord := isOther.inside character (by simp)
    rw [isRun.stops character rfl] at isWord
    cases isWord
  · simp

/-- At most one run starts at a place. -/
theorem IsWordRun.unique
    {before run after other behind : List Char}
    (isRun : IsWordRun before run after) (isOther : IsWordRun before other behind)
    (same : run ++ after = other ++ behind) :
    run = other ∧ after = behind :=
  List.append_inj same
    (Nat.le_antisymm (isOther.length_le isRun same.symm) (isRun.length_le isOther same))

/-- A word of ASCII letters, digits and underscores. -/
def IsAsciiWord (word : String) : Prop :=
  word ≠ "" ∧ ∀ character ∈ word.toList, character.toNat < 128 ∧ isWordChar character = true

instance (word : String) : Decidable (IsAsciiWord word) :=
  decidable_of_iff
    (word ≠ "" ∧
      (word.toList.all fun character => character.toNat < 128 && isWordChar character) = true)
    (by simp only [IsAsciiWord, List.all_eq_true, Bool.and_eq_true, decide_eq_true_eq])

end Text

namespace Pattern

open Text

variable {α : Type} {test : Char → CharTest} {listed : List String}

/-- One character after the other, each of which passes the test for a character of a word. -/
def spelled (test : Char → CharTest) (word : List Char) : Pattern :=
  word.foldr (fun character rest => .next (test character) rest) .empty

/-- A whole word out of a list, with some way to compare characters. -/
def wordsBy (test : Char → CharTest) (listed : List String) : Pattern :=
  sequence [wordEdge, choice (listed.map fun word => spelled test word.toList), wordEdge]

theorem words_eq_wordsBy (listed : List String) : words listed = wordsBy .only listed := rfl

theorem foldedWords_eq_wordsBy (listed : List String) :
    foldedWords listed = wordsBy .folded listed := rfl

/-- Whether the characters of a stretch pass the tests for the characters of a word. -/
def Spells (test : Char → CharTest) (word stretch : List Char) : Prop :=
  List.Forall₂ (fun wanted character => test wanted character = true) word stretch

/-- A match goes over a stretch that spells the word. -/
theorem firstMatch_spelled_eq_some_iff
    {word passed coming : List Char} {rest : Cursor → Option α} {found : α} :
    (spelled test word).firstMatch (Cursor.between passed coming) rest = some found ↔
      ∃ stretch ahead,
        stretch ++ ahead = coming ∧ Spells test word stretch ∧
          rest (Cursor.between (passed ++ stretch) ahead) = some found := by
  induction word generalizing passed coming with
  | nil =>
      rw [spelled, List.foldr_nil, firstMatch]
      simp [Spells]
  | cons wanted word ih =>
      rw [spelled, List.foldr_cons, ← spelled]
      cases coming with
      | nil => simp [firstMatch, Spells]
      | cons character coming =>
          rw [firstMatch_next_cons]
          constructor
          · intro matched
            split at matched
            · next passes =>
                obtain ⟨stretch, ahead, rfl, spells, success⟩ := ih.mp matched
                exact
                  ⟨character :: stretch, ahead, rfl, .cons passes spells, by simpa using success⟩
            · cases matched
          · rintro ⟨stretch, ahead, whole, spells, success⟩
            cases spells with
            | cons passes spells =>
                obtain ⟨rfl, rfl⟩ := List.cons.inj whole
                rw [if_pos passes]
                exact ih.mpr ⟨_, ahead, rfl, spells, by simpa using success⟩

/-- What a choice finds is found by one of its patterns, or without patterns by nothing. -/
theorem exists_firstMatch_of_choice
    {patterns : List Pattern} {cursor : Cursor} {rest : Cursor → Option α} {found : α}
    (matched : (choice patterns).firstMatch cursor rest = some found) :
    patterns = [] ∧ rest cursor = some found ∨
      ∃ pattern ∈ patterns, pattern.firstMatch cursor rest = some found := by
  fun_induction choice patterns with
  | case1 => exact .inl ⟨rfl, matched⟩
  | case2 last => exact .inr ⟨last, by simp, matched⟩
  | case3 first others notLast ih =>
      right
      rw [firstMatch] at matched
      split at matched
      · next success => exact ⟨first, by simp, success.trans matched⟩
      · rcases ih matched with ⟨rfl, _⟩ | ⟨pattern, member, success⟩
        · exact (notLast rfl).elim
        · exact ⟨pattern, List.mem_cons_of_mem _ member, success⟩

/-- A choice finds something if one of its patterns does. -/
theorem isSome_firstMatch_choice
    {patterns : List Pattern} {cursor : Cursor} {rest : Cursor → Option α}
    {pattern : Pattern} (member : pattern ∈ patterns)
    (succeeds : (pattern.firstMatch cursor rest).isSome = true) :
    ((choice patterns).firstMatch cursor rest).isSome = true := by
  fun_induction choice patterns with
  | case1 => cases member
  | case2 last => rwa [← List.mem_singleton.mp member]
  | case3 first others _ ih =>
      rw [firstMatch]
      rcases List.mem_cons.mp member with rfl | later
      · obtain ⟨found, success⟩ := Option.isSome_iff_exists.mp succeeds
        rw [success]
        rfl
      · split
        · rfl
        · exact ih later

theorem firstMatch_wordsBy
    (test : Char → CharTest) (listed : List String) (cursor : Cursor) (rest : Cursor → Option α) :
    (wordsBy test listed).firstMatch cursor rest =
      if Anchor.wordEdge.holds cursor then
        (choice (listed.map fun word => spelled test word.toList)).firstMatch cursor fun place =>
          if Anchor.wordEdge.holds place then rest place else none
      else none := by
  change (wordEdge ++ (choice _ ++ (wordEdge ++ Pattern.empty))).firstMatch cursor rest = _
  simp only [firstMatch_append, wordEdge, firstMatch]

/-- A stretch of word characters is a run if a word starts in front of it and ends behind it. -/
theorem isWordRun_iff_wordEdges
    {passed run ahead : List Char} (nonempty : run ≠ [])
    (inside : ∀ character ∈ run, isWordChar character = true) :
    IsWordRun passed run ahead ↔
      Anchor.wordEdge.holds (Cursor.between passed (run ++ ahead)) = true ∧
        Anchor.wordEdge.holds (Cursor.between (passed ++ run) ahead) = true := by
  have first : (run ++ ahead).head?.any isWordChar = true := by
    obtain ⟨character, others, rfl⟩ := List.exists_cons_of_ne_nil nonempty
    exact inside character (by simp)
  have last : (passed ++ run).getLast?.any isWordChar = true := by
    rw [List.getLast?_append_of_ne_nil _ nonempty, List.getLast?_eq_some_getLast nonempty]
    exact inside _ (List.getLast_mem nonempty)
  rw [Cursor.holds_wordEdge, Cursor.holds_wordEdge, first, last, Bool.bne_true, Bool.true_bne,
    Bool.not_eq_true', Bool.not_eq_true', Option.any_eq_false, Option.any_eq_false]
  exact
    ⟨fun isRun => ⟨isRun.starts, isRun.stops⟩,
      fun ⟨starts, stops⟩ => ⟨nonempty, inside, starts, stops⟩⟩

/-- Whether the words of a list are spelled by word characters only. -/
def TakesWords (test : Char → CharTest) (listed : List String) : Prop :=
  ∀ word ∈ listed,
    word.toList ≠ [] ∧
      ∀ wanted ∈ word.toList, ∀ character,
        test wanted character = true → isWordChar character = true

/-- What spells a word of such a list is a stretch of word characters. -/
theorem TakesWords.of_spells
    (takes : TakesWords test listed) {word : String} (member : word ∈ listed)
    {run : List Char} (spells : Spells test word.toList run) :
    run ≠ [] ∧ ∀ character ∈ run, isWordChar character = true := by
  obtain ⟨nonempty, inside⟩ := takes word member
  constructor
  · rintro rfl
    exact nonempty (List.forall₂_nil_right_iff.mp spells)
  · intro character isMember
    obtain ⟨index, within, rfl⟩ := List.mem_iff_getElem.mp isMember
    have sameLength := spells.length_eq
    exact inside _ (List.getElem_mem _) _ (spells.get (by omega) within)

/-- What the pattern finds is found behind a run that spells a word of the list. -/
theorem exists_isWordRun_of_firstMatch
    (takes : TakesWords test listed) {passed coming : List Char}
    {rest : Cursor → Option α} {found : α}
    (matched : (wordsBy test listed).firstMatch (Cursor.between passed coming) rest = some found) :
    listed = [] ∧ rest (Cursor.between passed coming) = some found ∨
      ∃ word ∈ listed, ∃ run ahead,
        run ++ ahead = coming ∧ Spells test word.toList run ∧ IsWordRun passed run ahead ∧
          rest (Cursor.between (passed ++ run) ahead) = some found := by
  rw [firstMatch_wordsBy] at matched
  split at matched
  · next startEdge =>
      rcases exists_firstMatch_of_choice matched with ⟨none, success⟩ | ⟨pattern, member, success⟩
      · rw [List.map_eq_nil_iff] at none
        rw [if_pos startEdge] at success
        exact .inl ⟨none, success⟩
      · obtain ⟨word, listedWord, rfl⟩ := List.mem_map.mp member
        obtain ⟨run, ahead, rfl, spells, success⟩ := firstMatch_spelled_eq_some_iff.mp success
        split at success
        · next stopEdge =>
            obtain ⟨nonempty, inside⟩ := takes.of_spells listedWord spells
            exact
              .inr
                ⟨word, listedWord, run, ahead, rfl, spells,
                  (isWordRun_iff_wordEdges nonempty inside).mpr ⟨startEdge, stopEdge⟩, success⟩
        · cases success
  · cases matched

/-- Behind a run that spells a word of the list the pattern finds what the rest gives there. -/
theorem firstMatch_wordsBy_of_isWordRun
    (takes : TakesWords test listed) {word : String} (member : word ∈ listed)
    {passed run ahead : List Char} (spells : Spells test word.toList run)
    (isRun : IsWordRun passed run ahead)
    {rest : Cursor → Option α} {found : α}
    (success : rest (Cursor.between (passed ++ run) ahead) = some found) :
    (wordsBy test listed).firstMatch (Cursor.between passed (run ++ ahead)) rest = some found := by
  obtain ⟨startEdge, stopEdge⟩ :=
    (isWordRun_iff_wordEdges isRun.nonempty isRun.inside).mp isRun
  obtain ⟨other, matched⟩ :
      ∃ other,
        (wordsBy test listed).firstMatch (Cursor.between passed (run ++ ahead)) rest =
          some other := by
    rw [← Option.isSome_iff_exists, firstMatch_wordsBy, if_pos startEdge]
    refine isSome_firstMatch_choice (List.mem_map_of_mem member) ?_
    rw [Option.isSome_iff_exists]
    refine ⟨found, firstMatch_spelled_eq_some_iff.mpr ⟨run, ahead, rfl, spells, ?_⟩⟩
    rw [if_pos stopEdge, success]
  -- The match may have come about by another word of the list, but it ends at the same place.
  rcases exists_isWordRun_of_firstMatch takes matched with
    ⟨rfl, _⟩ | ⟨_, _, further, behind, same, _, isOther, otherSuccess⟩
  · cases member
  · obtain ⟨rfl, rfl⟩ := isRun.unique isOther same.symm
    rw [matched, ← otherSuccess, success]

/-- Compared by themselves, the characters of a word spell the word alone. -/
theorem spells_only_iff {word run : List Char} : Spells .only word run ↔ word = run := by
  have exactly : (fun wanted character => CharTest.only wanted character = true) = Eq := by
    funext wanted character
    exact propext (beq_iff_eq.trans eq_comm)
  rw [Spells, exactly, List.forall₂_eq_eq_eq]

/-- Compared up to case, ASCII characters spell what folds to the same characters. -/
theorem spells_folded_iff
    {word run : List Char} (ascii : ∀ wanted ∈ word, wanted.toNat < 128) :
    Spells .folded word run ↔ run.map simpleFold = word.map simpleFold := by
  induction word generalizing run with
  | nil => simp [Spells]
  | cons wanted word ih =>
      obtain ⟨asciiHere, asciiLater⟩ := List.forall_mem_cons.mp ascii
      cases run with
      | nil => simp [Spells]
      | cons character run =>
          rw [Spells, List.forall₂_cons, CharTest.folded_iff_simpleFold_eq asciiHere, ← Spells,
            ih asciiLater, List.map_cons, List.map_cons, List.cons.injEq]

theorem takesWords_only (areWords : ∀ word ∈ listed, IsAsciiWord word) :
    TakesWords .only listed := by
  intro word member
  obtain ⟨nonempty, inside⟩ := areWords word member
  refine ⟨by simpa using nonempty, fun wanted isMember character passes => ?_⟩
  rw [beq_iff_eq.mp passes]
  exact (inside wanted isMember).2

theorem takesWords_folded (areWords : ∀ word ∈ listed, IsAsciiWord word) :
    TakesWords .folded listed := by
  intro word member
  obtain ⟨nonempty, inside⟩ := areWords word member
  refine ⟨by simpa using nonempty, fun wanted isMember character passes => ?_⟩
  obtain ⟨ascii, isWord⟩ := inside wanted isMember
  exact CharTest.isWordChar_of_folded ascii isWord passes

/-- If there are words in the list, the pattern matches no empty stretch. -/
theorem offset_lt_of_end?_wordsBy
    (takes : TakesWords test listed) (notEmpty : listed ≠ []) {text : List Char}
    {place after : Cursor} (inText : place.IsIn text)
    (ends : (wordsBy test listed).end? place = some after) :
    place.offset < after.offset := by
  obtain ⟨passed, coming, _, rfl⟩ := inText
  rcases exists_isWordRun_of_firstMatch takes ends with
    ⟨none, _⟩ | ⟨_, _, run, ahead, _, _, isRun, same⟩
  · exact absurd none notEmpty
  · cases same
    obtain ⟨character, others, rfl⟩ := List.exists_cons_of_ne_nil isRun.nonempty
    have positive : 0 < character.utf8Size := character.utf8Size_pos
    simp only [Cursor.offset_between, byteLength_append, byteLength_cons]
    omega

end Pattern

namespace Rule

open Cursor Pattern Text

variable {test : Char → CharTest} {listed : List String} {tokenClass : TokenClass}

/-- A rule for a list of words finds the runs that spell one of them, each as a whole. -/
theorem findsOver_wordsBy_iff
    (takes : TakesWords test listed) {passed run ahead : List Char} {claim : Claim} :
    (whole (wordsBy test listed) tokenClass).FindsOver passed run ahead claim ↔
      (∃ word ∈ listed, Spells test word.toList run) ∧ IsWordRun passed run ahead ∧
        claim = ⟨byteLength passed, byteLength (passed ++ run), tokenClass⟩ := by
  constructor
  · rintro ⟨nonempty, finds⟩
    rcases exists_isWordRun_of_firstMatch takes finds with
      ⟨_, success⟩ | ⟨word, member, further, behind, same, spells, isRun, success⟩
    · have stays := congrArg (·.2.remaining) (Option.some.inj success)
      simp only [remaining_between, List.length_append] at stays
      exact absurd (List.length_eq_zero_iff.mp (by omega)) nonempty
    · obtain ⟨rfl, ends⟩ := Prod.mk.inj (Option.some.inj success)
      obtain rfl : behind = ahead := congrArg Cursor.ahead ends
      obtain rfl : further = run := List.append_cancel_right same
      exact ⟨⟨word, member, spells⟩, isRun, rfl⟩
  · rintro ⟨⟨word, member, spells⟩, isRun, rfl⟩
    exact ⟨isRun.nonempty, firstMatch_wordsBy_of_isWordRun takes member spells isRun rfl⟩

/-- Whether a rule asks, from left to right, for exactly those runs of word characters of a text
that are wanted. -/
structure AsksForRuns
    (rule : Rule) (text : List Char) (tokenClass : TokenClass) (wanted : List Char → Prop) :
    Prop where
  mem_iff : ∀ claim,
    claim ∈ rule.claims text ↔
      ∃ before run after,
        before ++ run ++ after = text ∧ IsWordRun before run after ∧ wanted run ∧
          claim = ⟨byteLength before, byteLength (before ++ run), tokenClass⟩
  inOrder : (rule.claims text).Pairwise fun left right => left.stop ≤ right.start

/-- A rule for a list of words asks for the runs that spell one of them. -/
theorem asksForRuns_wordsBy
    (takes : TakesWords test listed) (tokenClass : TokenClass) (text : List Char) :
    (whole (wordsBy test listed) tokenClass).AsksForRuns text tokenClass
      fun run => ∃ word ∈ listed, Spells test word.toList run := by
  have scans : (whole (wordsBy test listed) tokenClass).Scans [] text _ :=
    scans_claimsFrom _ [] text
  refine ⟨fun claim => ?_, pairwise_claims _ _⟩
  constructor
  · intro member
    obtain ⟨before, run, after, rfl, matched⟩ := scans.exists_findsOver member
    obtain ⟨spells, isRun, rfl⟩ := (findsOver_wordsBy_iff takes).mp matched
    exact ⟨before, run, after, by simp, isRun, spells, rfl⟩
  · rintro ⟨before, run, after, rfl, isRun, spells, rfl⟩
    have matched :
        (whole (wordsBy test listed) tokenClass).FindsOver ([] ++ before) run after
          ⟨byteLength before, byteLength (before ++ run), tokenClass⟩ :=
      (findsOver_wordsBy_iff takes).mpr ⟨spells, isRun, rfl⟩
    rcases scans.mem_or_exists_findsOver (List.append_assoc ..).symm matched with
      member | ⟨earlier, later, beyond, back, other, rfl, nonempty, _, _, earlierOver⟩
    · exact member
    · -- A match over the beginning of the run would have to go over the character in front of it.
      obtain ⟨_, isEarlier, _⟩ := (findsOver_wordsBy_iff takes).mp earlierOver
      have inEarlier := isEarlier.inside (later.getLast nonempty) (by simp)
      have inFront :
          later.getLast nonempty ∈ (earlier ++ later).getLast? := by
        rw [List.getLast?_append_of_ne_nil _ nonempty, List.getLast?_eq_some_getLast nonempty]
        rfl
      rw [isRun.starts _ inFront] at inEarlier
      cases inEarlier

theorem AsksForRuns.congr
    {rule : Rule} {text : List Char} {wanted other : List Char → Prop}
    (asks : rule.AsksForRuns text tokenClass wanted) (same : ∀ run, wanted run ↔ other run) :
    rule.AsksForRuns text tokenClass other :=
  (funext fun run => propext (same run) : wanted = other) ▸ asks

/--
A rule for a list of words of ASCII letters, digits and underscores asks, from left to right, for
exactly the maximal runs of word characters of a text that are in the list, and a rule for the list
up to case for exactly those that become a word of the list by simple case folding of both.  Unless
the list is empty, no match of either pattern is empty, so every match is one of those runs.
-/
theorem words_and_foldedWords_askForRuns
    {listed : List String} (areWords : ∀ word ∈ listed, IsAsciiWord word)
    (tokenClass : TokenClass) (text : List Char) :
    (whole (words listed) tokenClass).AsksForRuns text tokenClass
      (fun run => String.ofList run ∈ listed) ∧
    (whole (foldedWords listed) tokenClass).AsksForRuns text tokenClass
      (fun run => ∃ word ∈ listed, run.map simpleFold = word.toList.map simpleFold) ∧
    (listed ≠ [] →
      ∀ pattern ∈ [words listed, foldedWords listed], ∀ place after : Cursor,
        place.IsIn text → pattern.end? place = some after → place.offset < after.offset) := by
  have takesOnly := takesWords_only areWords
  have takesFolded := takesWords_folded areWords
  rw [words_eq_wordsBy, foldedWords_eq_wordsBy]
  refine ⟨?_, ?_, fun notEmpty => ?_⟩
  · refine (asksForRuns_wordsBy takesOnly tokenClass text).congr fun run => ?_
    simp only [spells_only_iff]
    constructor
    · rintro ⟨word, member, rfl⟩
      rwa [String.ofList_toList]
    · exact fun member => ⟨_, member, String.toList_ofList⟩
  · refine (asksForRuns_wordsBy takesFolded tokenClass text).congr fun run => ?_
    refine exists_congr fun word => and_congr_right fun member => ?_
    exact spells_folded_iff fun wanted isMember => ((areWords word member).2 wanted isMember).1
  · rw [List.forall_mem_cons, List.forall_mem_singleton]
    exact
      ⟨fun _ _ => offset_lt_of_end?_wordsBy takesOnly notEmpty,
        fun _ _ => offset_lt_of_end?_wordsBy takesFolded notEmpty⟩

/-- The beginning of a longer word is no match; the Kelvin sign goes with a small `k`. -/
theorem words_and_foldedWords_askForRuns_sample :
    let listed := ["in", "ink", "is"]
    let text := "inks ink i\u017f in\u212a".toList
    (∀ word ∈ listed, IsAsciiWord word) ∧
      ⟨5, 8, .keyword⟩ ∈ (whole (words listed) .keyword).claims text ∧
      (∀ claim ∈ (whole (words listed) .keyword).claims text,
        ∃ before run after,
          before ++ run ++ after = text ∧ IsWordRun before run after ∧
            String.ofList run ∈ listed) ∧
      ⟨13, 18, .keyword⟩ ∈ (whole (foldedWords listed) .keyword).claims text := by
  intro listed text
  have areWords : ∀ word ∈ listed, IsAsciiWord word := by decide +kernel
  obtain ⟨exactly, upToCase, _⟩ := words_and_foldedWords_askForRuns areWords .keyword text
  refine ⟨areWords, ?_, ?_, ?_⟩
  · refine (exactly.mem_iff _).mpr ⟨"inks ".toList, "ink".toList, " i\u017f in\u212a".toList, ?_⟩
    exact ⟨rfl, by decide +kernel, by decide, by decide⟩
  · intro claim member
    obtain ⟨before, run, after, whole, isRun, inList, _⟩ := (exactly.mem_iff claim).mp member
    exact ⟨before, run, after, whole, isRun, inList⟩
  · refine (upToCase.mem_iff _).mpr ⟨"inks ink i\u017f ".toList, "in\u212a".toList, [], ?_⟩
    exact ⟨rfl, by decide +kernel, ⟨"ink", by decide, by decide +kernel⟩, by decide⟩

example :
    (whole (foldedWords ["in", "ink", "is"]) .keyword).claims
        "inks ink i\u017f in\u212a".toList =
      [⟨5, 8, .keyword⟩, ⟨9, 12, .keyword⟩, ⟨13, 18, .keyword⟩] := by
  decide +kernel

end Rule

end SourcePreview
