import SourcePreview.Highlight.Rule
import SourcePreview.Proofs.Text.Offsets

/-!
# Places that matching reaches

A cursor between two parts of a text is determined by these parts.  Matching moves cursors over
whole characters only, so whatever is kept by moving over one character is kept by any match and
by a scan of a whole text.  In particular every stretch that a rule asks for starts and stops
between characters.
-/

namespace SourcePreview

namespace Cursor

/-- The place between a part of a text that was passed and the part that comes. -/
def between (passed coming : List Char) : Cursor :=
  ⟨match passed.getLast? with
    | some character => character :: coming
    | none => [],
    coming, coming.length, Text.byteLength passed⟩

@[simp]
theorem ahead_between (passed coming : List Char) :
    (between passed coming).ahead = coming := rfl

@[simp]
theorem remaining_between (passed coming : List Char) :
    (between passed coming).remaining = coming.length := rfl

@[simp]
theorem offset_between (passed coming : List Char) :
    (between passed coming).offset = Text.byteLength passed := rfl

theorem start_eq_between (text : List Char) :
    start text = between [] text := rfl

@[simp]
theorem eat?_between_nil (test : CharTest) (passed : List Char) :
    (between passed []).eat? test = none := rfl

/-- Eating a character moves it from the part that comes to the part that was passed. -/
@[simp]
theorem eat?_between_cons
    (test : CharTest) (passed : List Char)
    (character : Char) (rest : List Char) :
    (between passed (character :: rest)).eat? test =
      if test character then
        some (between (passed ++ [character]) rest)
      else none := by
  simp [eat?, between]

/-- Going on to the next character is eating a character of any kind. -/
theorem next?_eq_eat? (cursor : Cursor) :
    cursor.next? = cursor.eat? fun _ => true := by
  unfold next? eat?
  cases cursor.ahead <;> rfl

/-- Whether a cursor stands at a place of a text. -/
def IsIn (text : List Char) (cursor : Cursor) : Prop :=
  ∃ passed coming,
    passed ++ coming = text ∧ cursor = between passed coming

theorem isIn_start (text : List Char) : (start text).IsIn text :=
  ⟨[], text, rfl, start_eq_between text⟩

/-- The offset of a place lies between characters. -/
theorem IsIn.isBoundary_offset
    {text : List Char} {cursor : Cursor} (inText : cursor.IsIn text) :
    Text.IsBoundary text cursor.offset := by
  obtain ⟨passed, coming, rfl, rfl⟩ := inText
  exact
    ⟨passed.length, by simp, (Text.offsetAt_append_length passed coming).symm⟩

/-- Whether eating a character that passes a test keeps a property of cursors. -/
def KeptBy (test : CharTest) (property : Cursor → Prop) : Prop :=
  ∀ cursor after : Cursor,
    property cursor → cursor.eat? test = some after → property after

theorem keptBy_isIn (text : List Char) (test : CharTest) :
    KeptBy test (IsIn text) := by
  rintro cursor after ⟨passed, coming, whole, rfl⟩ eaten
  cases coming with
  | nil => simp at eaten
  | cons character rest =>
      rw [eat?_between_cons] at eaten
      split at eaten
      · cases eaten
        exact ⟨passed ++ [character], rest, by simpa using whole, rfl⟩
      · cases eaten

section

variable {property : Cursor → Prop}

theorem property_of_eatAll?
    {tests : List CharTest} (kept : ∀ test ∈ tests, KeptBy test property)
    {cursor after : Cursor}
    (holds : property cursor) (eaten : cursor.eatAll? tests = some after) :
    property after := by
  induction tests generalizing cursor with
  | nil =>
      cases eaten
      exact holds
  | cons test tests ih =>
      obtain ⟨keptHere, keptLater⟩ := List.forall_mem_cons.mp kept
      rw [eatAll?] at eaten
      split at eaten
      · next middle first =>
          exact ih keptLater (keptHere cursor middle holds first) eaten
      · cases eaten

theorem property_of_eatUnit?
    {units : List (List CharTest)}
    (kept : ∀ test ∈ units.flatten, KeptBy test property)
    {cursor after : Cursor}
    (holds : property cursor) (eaten : cursor.eatUnit? units = some after) :
    property after := by
  induction units with
  | nil => cases eaten
  | cons unit units ih =>
      rw [List.flatten_cons, List.forall_mem_append] at kept
      rw [eatUnit?] at eaten
      split at eaten
      · next middle fits =>
          cases eaten
          exact property_of_eatAll? kept.1 holds fits
      · exact ih kept.2 eaten

theorem property_of_mem_walk
    {test : CharTest} (kept : KeptBy test property)
    {rounds : Nat} {cursor place : Cursor} {passed : List Cursor}
    (holds : property cursor) (before : ∀ earlier ∈ passed, property earlier)
    (member : place ∈ cursor.walk test rounds passed) :
    property place := by
  induction rounds generalizing cursor passed with
  | zero =>
      rcases List.mem_cons.mp member with rfl | earlier
      · exact holds
      · exact before place earlier
  | succ rounds ih =>
      have extended : ∀ earlier ∈ cursor :: passed, property earlier := by
        simpa using ⟨holds, before⟩
      rw [walk] at member
      split at member
      · next after eaten =>
          exact ih (kept cursor after holds eaten) extended member
      · exact extended place member

theorem property_of_mem_trail
    {units : List (List CharTest)}
    (kept : ∀ test ∈ units.flatten, KeptBy test property)
    {rounds : Nat} {cursor place : Cursor} {passed : List Cursor}
    (holds : property cursor) (before : ∀ earlier ∈ passed, property earlier)
    (member : place ∈ cursor.trail units rounds passed) :
    property place := by
  induction rounds generalizing cursor passed with
  | zero =>
      rcases List.mem_cons.mp member with rfl | earlier
      · exact holds
      · exact before place earlier
  | succ rounds ih =>
      have extended : ∀ earlier ∈ cursor :: passed, property earlier := by
        simpa using ⟨holds, before⟩
      rw [trail] at member
      split at member
      · next after eaten =>
          exact ih (property_of_eatUnit? kept holds eaten) extended member
      · exact extended place member

end

end Cursor

namespace Pattern

open Cursor

/-- The tests that the characters of a match have to pass. -/
def tests : Pattern → List CharTest
  | .empty => []
  | .next test tail => test :: tail.tests
  | .anchor _ => []
  | .notAfter _ => []
  | .seq first second => first.tests ++ second.tests
  | .alt preferred other => preferred.tests ++ other.tests
  | .star body => body.tests
  | .many test => [test]
  | .few test => [test]
  | .units sequences => sequences.flatten

section

variable {α : Type} {property : Cursor → Prop}

/-- If each round hands on to places with a property, so do repeated rounds. -/
theorem iterate_reaches
    {step : Cursor → (Cursor → Option α) → Option α}
    (stepReaches : ∀ cursor rest found,
      property cursor → step cursor rest = some found →
        ∃ after, property after ∧ rest after = some found)
    {rounds : Nat} {cursor : Cursor} {rest : Cursor → Option α} {found : α}
    (holds : property cursor)
    (matched : iterate step rounds cursor rest = some found) :
    ∃ after, property after ∧ rest after = some found := by
  induction rounds generalizing cursor with
  | zero => exact ⟨cursor, holds, matched⟩
  | succ rounds ih =>
      simp only [iterate] at matched
      split at matched
      · next again oneMore =>
          cases matched
          obtain ⟨middle, middleHolds, goesOn⟩ :=
            stepReaches _ _ _ holds oneMore
          split at goesOn
          · exact ih middleHolds goesOn
          · cases goesOn
      · exact ⟨cursor, holds, matched⟩

theorem extend_reaches
    {test : CharTest} (kept : KeptBy test property)
    {rounds : Nat} {cursor : Cursor} {rest : Cursor → Option α} {found : α}
    (holds : property cursor)
    (matched : extend test rest rounds cursor = some found) :
    ∃ after, property after ∧ rest after = some found := by
  induction rounds generalizing cursor with
  | zero => exact ⟨cursor, holds, matched⟩
  | succ rounds ih =>
      rw [extend] at matched
      split at matched
      · next here =>
          exact ⟨cursor, holds, here.trans matched⟩
      · split at matched
        · next after eaten =>
            exact ih (kept cursor after holds eaten) matched
        · cases matched

/-- A match succeeds at a place that has every property which eating the characters of the match
keeps. -/
theorem firstMatch_reaches
    (pattern : Pattern) (kept : ∀ test ∈ pattern.tests, KeptBy test property)
    {cursor : Cursor} {rest : Cursor → Option α} {found : α}
    (holds : property cursor)
    (matched : pattern.firstMatch cursor rest = some found) :
    ∃ after, property after ∧ rest after = some found := by
  induction pattern generalizing cursor rest found with
  | empty => exact ⟨cursor, holds, matched⟩
  | next test tail ih =>
      obtain ⟨keptHere, keptLater⟩ := List.forall_mem_cons.mp kept
      rw [firstMatch] at matched
      split at matched
      · next after eaten =>
          exact ih keptLater (keptHere cursor after holds eaten) matched
      · cases matched
  | anchor condition =>
      rw [firstMatch] at matched
      split at matched
      · exact ⟨cursor, holds, matched⟩
      · cases matched
  | notAfter test =>
      rw [firstMatch] at matched
      split at matched
      · cases matched
      · exact ⟨cursor, holds, matched⟩
  | seq first second firstIH secondIH =>
      obtain ⟨keptFirst, keptSecond⟩ := List.forall_mem_append.mp kept
      rw [firstMatch] at matched
      obtain ⟨middle, middleHolds, goesOn⟩ := firstIH keptFirst holds matched
      exact secondIH keptSecond middleHolds goesOn
  | alt preferred other preferredIH otherIH =>
      obtain ⟨keptPreferred, keptOther⟩ := List.forall_mem_append.mp kept
      rw [firstMatch] at matched
      split at matched
      · next success =>
          exact preferredIH keptPreferred holds (success.trans matched)
      · exact otherIH keptOther holds matched
  | star body ih =>
      rw [firstMatch] at matched
      exact
        iterate_reaches (fun _ _ _ => ih kept) holds matched
  | many test =>
      rw [firstMatch] at matched
      obtain ⟨after, member, success⟩ :=
        List.exists_of_findSome?_eq_some matched
      exact
        ⟨after,
          property_of_mem_walk (kept test (by simp [tests])) holds (by simp) member,
          success⟩
  | few test =>
      rw [firstMatch] at matched
      exact extend_reaches (kept test (by simp [tests])) holds matched
  | units sequences =>
      rw [firstMatch] at matched
      obtain ⟨after, member, success⟩ :=
        List.exists_of_findSome?_eq_some matched
      exact
        ⟨after, property_of_mem_trail kept holds (by simp) member, success⟩

end

/-- A match succeeds with what the rest of the match gives at some place. -/
theorem exists_of_firstMatch
    {α : Type} (pattern : Pattern) {cursor : Cursor}
    {rest : Cursor → Option α} {found : α}
    (matched : pattern.firstMatch cursor rest = some found) :
    ∃ after, rest after = some found := by
  have anywhere : ∀ test ∈ pattern.tests, KeptBy test fun _ => True :=
    fun _ _ _ _ _ _ => trivial
  obtain ⟨after, _, success⟩ := pattern.firstMatch_reaches anywhere trivial matched
  exact ⟨after, success⟩

end Pattern

/-- If finding keeps a property of places, then everything that a scan finds is found at a place
with that property. -/
theorem exists_of_mem_scanFrom
    {α : Type} {property : Cursor → Prop}
    {find : Cursor → Option (α × Cursor)}
    (kept : Cursor.KeptBy (fun _ => true) property)
    (findKeeps : ∀ cursor found after,
      property cursor → find cursor = some (found, after) → property after)
    {tries : Nat} {cursor : Cursor} {found : α}
    (holds : property cursor) (member : found ∈ scanFrom find tries cursor) :
    ∃ place after, property place ∧ find place = some (found, after) := by
  induction tries generalizing cursor with
  | zero => simp [scanFrom] at member
  | succ tries ih =>
      rw [scanFrom] at member
      split at member
      · next first after here =>
          have finds : find cursor = some (first, after) :=
            (Option.filter_eq_some_iff.mp here).1
          rcases List.mem_cons.mp member with rfl | later
          · exact ⟨cursor, after, holds, finds⟩
          · exact ih (findKeeps cursor first after holds finds) later
      · split at member
        · next after moved =>
            rw [Cursor.next?_eq_eat?] at moved
            exact ih (kept cursor after holds moved) member
        · simp at member

/-- Whether a stretch starts and stops between characters of a text. -/
structure Claim.OnBoundaries (text : List Char) (claim : Claim) : Prop where
  start : Text.IsBoundary text claim.start
  stop : Text.IsBoundary text claim.stop

namespace Rule

open Cursor

/-- What a rule finds at a place of a text ends at a place of the text and asks for a stretch
between characters. -/
theorem find_isIn
    {text : List Char} {rule : Rule} {cursor after : Cursor} {claim : Claim}
    (inText : cursor.IsIn text)
    (finds : rule.find cursor = some (claim, after)) :
    claim.OnBoundaries text ∧ after.IsIn text := by
  have kept (pattern : Pattern) : ∀ test ∈ pattern.tests, KeptBy test (IsIn text) :=
    fun test _ => keptBy_isIn text test
  cases rule with
  | whole pattern tokenClass =>
      obtain ⟨stop, stopIn, same⟩ :=
        Pattern.firstMatch_reaches pattern (kept pattern) inText finds
      cases same
      exact
        ⟨⟨inText.isBoundary_offset, stopIn.isBoundary_offset⟩, stopIn⟩
  | inner lead target follow tokenClass =>
      obtain ⟨start, startIn, onward⟩ :=
        Pattern.firstMatch_reaches lead (kept lead) inText finds
      obtain ⟨stop, stopIn, onward⟩ :=
        Pattern.firstMatch_reaches target (kept target) startIn onward
      obtain ⟨resume, resumeIn, same⟩ :=
        Pattern.firstMatch_reaches follow (kept follow) stopIn onward
      cases same
      exact
        ⟨⟨startIn.isBoundary_offset, stopIn.isBoundary_offset⟩, resumeIn⟩
  | firstOf parts =>
      obtain ⟨⟨pattern, tokenClass⟩, _, fits⟩ :=
        List.exists_of_findSome?_eq_some finds
      obtain ⟨stop, stopIn, same⟩ :=
        Pattern.firstMatch_reaches pattern (kept pattern) inText fits
      cases same
      exact
        ⟨⟨inText.isBoundary_offset, stopIn.isBoundary_offset⟩, stopIn⟩

/-- What a rule asks for is found at a place of the text. -/
theorem exists_find_of_mem_claims
    {text : List Char} {rule : Rule} {claim : Claim}
    (asked : claim ∈ rule.claims text) :
    ∃ place after, place.IsIn text ∧ rule.find place = some (claim, after) :=
  exists_of_mem_scanFrom (keptBy_isIn text _)
    (fun _ _ _ inText finds => (find_isIn inText finds).2)
    (isIn_start text) asked

/-- Every stretch that a rule asks for starts and stops between characters. -/
theorem onBoundaries_of_mem_claims
    {text : List Char} {rule : Rule} {claim : Claim}
    (asked : claim ∈ rule.claims text) :
    claim.OnBoundaries text := by
  obtain ⟨place, after, inText, finds⟩ := exists_find_of_mem_claims asked
  exact (find_isIn inText finds).1

end Rule

end SourcePreview
