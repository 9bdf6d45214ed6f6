import SourcePreview.Pattern.Build
import SourcePreview.Proofs.Pattern.Places

/-!
# Preferred ends of matches

A match hands the places where it may end to the rest one after the other.  For many patterns it
is enough to know the first of these places, and some patterns cannot end at any other: a run of
characters that the rest cannot start with is always taken as a whole.
-/

namespace SourcePreview

namespace CharTest

theorem among_iff (listed : String) (character : Char) :
    among listed character = true ↔ character ∈ listed.toList := by
  unfold among
  induction listed.toList with
  | nil => simp [isMember]
  | cons member members ih => simp [isMember, ih]

theorem only_eq_false {wanted character : Char} (different : character ≠ wanted) :
    only wanted character = false :=
  beq_false_of_ne different

/-- Whether a test refuses the next character, if there is one. -/
def Refuses (test : CharTest) (coming : List Char) : Prop :=
  ∀ character ∈ coming.head?, test character = false

theorem refuses_cons
    {test : CharTest} {character : Char} (refused : test character = false)
    (rest : List Char) :
    Refuses test (character :: rest) := by
  intro other first
  obtain rfl : character = other := by simpa using first
  exact refused

theorem Refuses.append
    {test : CharTest} {part rest : List Char}
    (refuses : Refuses test part) (refusesBehind : Refuses test rest) :
    Refuses test (part ++ rest) := by
  cases part with
  | nil => exact refusesBehind
  | cons => exact refuses

end CharTest

namespace Cursor

@[simp]
theorem before?_between (passed coming : List Char) :
    (between passed coming).before? = passed.getLast? := by
  unfold before? between
  cases passed.getLast? <;> rfl

/-- A word starts or ends where word characters stand on one side only. -/
theorem holds_wordEdge (passed coming : List Char) :
    Anchor.wordEdge.holds (between passed coming) =
      (passed.getLast?.any Text.isWordChar != coming.head?.any Text.isWordChar) := by
  rw [Anchor.holds, wordBefore, wordAhead, before?_between, ahead_between]

/-- The places passed on a walk over a run of characters: the end of the run comes first, and
characters of the run come behind the others. -/
theorem walk_between
    {test : CharTest} {run ahead : List Char}
    (passes : ∀ character ∈ run, test character = true)
    (stops : CharTest.Refuses test ahead)
    (passed : List Char) (rounds : Nat) (enough : run.length ≤ rounds)
    (before : List Cursor) :
    ∃ earlier,
      (between passed (run ++ ahead)).walk test rounds before =
          between (passed ++ run) ahead :: (earlier ++ before) ∧
        ∀ place ∈ earlier, ∃ front character back,
          test character = true ∧ place = between front (character :: back) := by
  induction run generalizing passed rounds before with
  | nil =>
      refine ⟨[], ?_, by simp⟩
      cases rounds with
      | zero => simp [walk]
      | succ rounds =>
          cases ahead with
          | nil => simp [walk]
          | cons character ahead => simp [walk, stops character (by simp)]
  | cons character run ih =>
      obtain ⟨passesHere, passesLater⟩ := List.forall_mem_cons.mp passes
      cases rounds with
      | zero => simp at enough
      | succ rounds =>
          let cursor := between passed (character :: (run ++ ahead))
          obtain ⟨earlier, walked, within⟩ :=
            ih passesLater (passed ++ [character]) rounds (by simpa using enough)
              (cursor :: before)
          refine ⟨earlier ++ [cursor], ?_, ?_⟩
          · simpa [walk, passesHere, cursor] using walked
          · rw [List.forall_mem_append]
            exact ⟨within, List.forall_mem_singleton.mpr ⟨_, _, _, passesHere, rfl⟩⟩

end Cursor

namespace Pattern

variable {α : Type}

/-- A character is tested and passed. -/
theorem firstMatch_next_cons
    (test : CharTest) (tail : Pattern) (passed : List Char) (character : Char)
    (coming : List Char) (rest : Cursor → Option α) :
    (Pattern.next test tail).firstMatch (Cursor.between passed (character :: coming)) rest =
      if test character then
        tail.firstMatch (Cursor.between (passed ++ [character]) coming) rest
      else none := by
  rw [firstMatch, Cursor.eat?_between_cons]
  split <;> simp_all

/-- Patterns that are put together match one after the other. -/
theorem firstMatch_append
    (first second : Pattern) (cursor : Cursor) (rest : Cursor → Option α) :
    (first ++ second).firstMatch cursor rest =
      first.firstMatch cursor fun middle => second.firstMatch middle rest := by
  change (append first second).firstMatch cursor rest = _
  fun_induction append first second generalizing cursor with
  | case1 first | case2 second => simp only [firstMatch]
  | case3 test tail second _ ih => simp only [firstMatch, ih]
  | case4 first middle second _ ih => simp only [firstMatch, ih]
  | case5 first second => simp only [firstMatch]

/-- Whether a match succeeds with the place behind a stretch whenever the rest succeeds there. -/
def Prefers (pattern : Pattern) (passed stretch ahead : List Char) : Prop :=
  ∀ (α : Type) (rest : Cursor → Option α) (found : α),
    rest (Cursor.between (passed ++ stretch) ahead) = some found →
      pattern.firstMatch (Cursor.between passed (stretch ++ ahead)) rest = some found

/-- Whether no match is possible at a place. -/
def Fails (pattern : Pattern) (passed coming : List Char) : Prop :=
  ∀ (α : Type) (rest : Cursor → Option α),
    pattern.firstMatch (Cursor.between passed coming) rest = none

/-- Whether a match can end behind a stretch only. -/
def EndsAt (pattern : Pattern) (passed stretch ahead : List Char) : Prop :=
  ∀ (α : Type) (rest : Cursor → Option α),
    pattern.firstMatch (Cursor.between passed (stretch ++ ahead)) rest =
      rest (Cursor.between (passed ++ stretch) ahead)

section

variable {first second : Pattern} {test : CharTest} {passed stretch further ahead : List Char}

theorem prefers_empty : Prefers .empty passed [] ahead := by
  intro α rest found success
  simpa [firstMatch] using success

theorem Prefers.next
    {character : Char} (passes : test character = true)
    (tail : Prefers first (passed ++ [character]) stretch ahead) :
    Prefers (.next test first) passed (character :: stretch) ahead := by
  intro α rest found success
  rw [List.cons_append, firstMatch_next_cons, if_pos passes]
  exact tail α rest found (by simpa using success)

theorem Prefers.seq
    (preferred : Prefers first passed stretch (further ++ ahead))
    (onward : Prefers second (passed ++ stretch) further ahead) :
    Prefers (.seq first second) passed (stretch ++ further) ahead := by
  intro α rest found success
  rw [List.append_assoc, firstMatch]
  exact preferred α _ found (onward α rest found (by simpa using success))

theorem Prefers.append
    (preferred : Prefers first passed stretch (further ++ ahead))
    (onward : Prefers second (passed ++ stretch) further ahead) :
    Prefers (first ++ second) passed (stretch ++ further) ahead := by
  intro α rest found success
  rw [firstMatch_append]
  exact Prefers.seq preferred onward α rest found success

theorem EndsAt.prefers (ends : EndsAt first passed stretch ahead) :
    Prefers first passed stretch ahead := by
  intro α rest found success
  rw [ends, success]

theorem Prefers.alt_left
    (preferred : Prefers first passed stretch ahead) (second : Pattern) :
    Prefers (.alt first second) passed stretch ahead := by
  intro α rest found success
  rw [firstMatch, preferred α rest found success]

theorem Prefers.alt_right
    (fails : Fails first passed (stretch ++ ahead))
    (preferred : Prefers second passed stretch ahead) :
    Prefers (.alt first second) passed stretch ahead := by
  intro α rest found success
  rw [firstMatch, fails, preferred α rest found success]

/-- What is optional is left out if it does not fit. -/
theorem prefers_optional_nil (fails : Fails first passed ahead) :
    Prefers (optional first) passed [] ahead :=
  Prefers.alt_right fails prefers_empty

theorem prefers_literal (text : String) : Prefers (literal text) passed text.toList ahead := by
  unfold literal
  induction text.toList generalizing passed with
  | nil => exact prefers_empty
  | cons character text ih => exact Prefers.next (by simp [CharTest.only]) ih

/-- A condition in front of a match. -/
theorem Prefers.anchor_seq
    {condition : Anchor} (holds : condition.holds (Cursor.between passed (stretch ++ ahead)) = true)
    (preferred : Prefers first passed stretch ahead) :
    Prefers (.seq (.anchor condition) first) passed stretch ahead := by
  intro α rest found success
  rw [firstMatch, firstMatch, if_pos holds]
  exact preferred α rest found success

/-- A condition behind a match. -/
theorem Prefers.seq_anchor
    {condition : Anchor} (preferred : Prefers first passed stretch ahead)
    (holds : condition.holds (Cursor.between (passed ++ stretch) ahead) = true) :
    Prefers (.seq first (.anchor condition)) passed stretch ahead := by
  intro α rest found success
  rw [firstMatch]
  exact preferred α _ found (by rw [firstMatch, if_pos holds, success])

/-- A run of characters is taken as a whole if the rest agrees. -/
theorem prefers_many
    (passes : ∀ character ∈ stretch, test character = true)
    (stops : CharTest.Refuses test ahead) :
    Prefers (.many test) passed stretch ahead := by
  intro α rest found success
  obtain ⟨earlier, walked, _⟩ :=
    Cursor.walk_between passes stops passed (stretch ++ ahead).length (by simp) []
  rw [firstMatch, Cursor.remaining_between, walked, List.findSome?_cons, success]

/-- A run of characters is taken as a whole if the rest cannot start with one of them. -/
theorem firstMatch_many_of_stuck
    (passes : ∀ character ∈ stretch, test character = true)
    (stops : CharTest.Refuses test ahead)
    {rest : Cursor → Option α}
    (stuck : ∀ front character back, test character = true →
      rest (Cursor.between front (character :: back)) = none) :
    (Pattern.many test).firstMatch (Cursor.between passed (stretch ++ ahead)) rest =
      rest (Cursor.between (passed ++ stretch) ahead) := by
  obtain ⟨earlier, walked, within⟩ :=
    Cursor.walk_between passes stops passed (stretch ++ ahead).length (by simp) []
  have noneEarlier : earlier.findSome? rest = none := by
    rw [List.findSome?_eq_none_iff]
    intro place member
    obtain ⟨front, character, back, passesHere, rfl⟩ := within place member
    exact stuck front character back passesHere
  rw [firstMatch, Cursor.remaining_between, walked, List.findSome?_cons, List.append_nil,
    noneEarlier]
  cases rest (Cursor.between (passed ++ stretch) ahead) <;> rfl

theorem fails_next
    {coming : List Char} (refused : CharTest.Refuses test coming) :
    Fails (.next test first) passed coming := by
  intro α rest
  cases coming with
  | nil => simp [firstMatch]
  | cons character coming =>
      rw [firstMatch_next_cons, refused character (by simp)]
      rfl

theorem Fails.seq (fails : Fails first passed stretch) (second : Pattern) :
    Fails (.seq first second) passed stretch := by
  intro α rest
  rw [firstMatch, fails]

theorem Fails.anchor_seq (fails : Fails second passed stretch) (condition : Anchor) :
    Fails (.seq (.anchor condition) second) passed stretch := by
  intro α rest
  rw [firstMatch, firstMatch, fails]
  exact ite_self none

theorem Fails.optional_seq
    (firstFails : Fails first passed stretch) (secondFails : Fails second passed stretch) :
    Fails (.seq (optional first) second) passed stretch := by
  intro α rest
  rw [optional, firstMatch, firstMatch, firstFails]
  exact secondFails α rest

theorem Fails.alt
    (firstFails : Fails first passed stretch) (secondFails : Fails second passed stretch) :
    Fails (.alt first second) passed stretch := by
  intro α rest
  rw [firstMatch, firstFails, secondFails]

end

end Pattern

end SourcePreview
