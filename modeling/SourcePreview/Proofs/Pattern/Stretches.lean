import SourcePreview.Proofs.Pattern.Places

/-!
# Stretches that matches go over

A match goes over a stretch of the text that consists of characters which tests of the pattern
accept.  Some patterns are built such that no match of theirs is empty.  What a scan of a text
finds is in order: a stretch that it reports ends before the next one starts.
-/

namespace SourcePreview

namespace Pattern

open Cursor

variable {α : Type}

/-- Whether some test of the pattern lets a character pass. -/
def accepts (pattern : Pattern) (character : Char) : Bool :=
  pattern.tests.any fun test => test character

/-- Whether the form of the pattern excludes empty matches. -/
def consumes : Pattern → Bool
  | .next _ _ => true
  | .seq first second => first.consumes || second.consumes
  | .alt preferred other => preferred.consumes && other.consumes
  | _ => false

/-- If eating the first character of a match gives a place a property that eating the others
keeps, then a match that cannot be empty succeeds at a place with that property. -/
theorem firstMatch_moves
    {here moved : Cursor → Prop}
    (pattern : Pattern) (consumes : pattern.consumes = true)
    (moves : ∀ test ∈ pattern.tests, ∀ cursor after : Cursor,
      here cursor → cursor.eat? test = some after → moved after)
    (kept : ∀ test ∈ pattern.tests, KeptBy test moved)
    {cursor : Cursor} {rest : Cursor → Option α} {found : α}
    (holds : here cursor)
    (matched : pattern.firstMatch cursor rest = some found) :
    ∃ after, moved after ∧ rest after = some found := by
  induction pattern generalizing cursor rest found with
  | next test tail =>
      obtain ⟨movesHere, _⟩ := List.forall_mem_cons.mp moves
      obtain ⟨_, keptLater⟩ := List.forall_mem_cons.mp kept
      rw [firstMatch] at matched
      split at matched
      · next after eaten =>
          exact
            tail.firstMatch_reaches keptLater (movesHere cursor after holds eaten)
              matched
      · cases matched
  | seq first second firstIH secondIH =>
      obtain ⟨movesFirst, movesSecond⟩ := List.forall_mem_append.mp moves
      obtain ⟨keptFirst, keptSecond⟩ := List.forall_mem_append.mp kept
      rw [firstMatch] at matched
      rcases Bool.or_eq_true_iff.mp consumes with firstConsumes | secondConsumes
      · obtain ⟨middle, middleMoved, goesOn⟩ :=
          firstIH firstConsumes movesFirst keptFirst holds matched
        exact second.firstMatch_reaches keptSecond middleMoved goesOn
      · -- The first part may or may not have eaten something.
        have keptEither :
            ∀ test ∈ first.tests, KeptBy test fun place => here place ∨ moved place := by
          rintro test member before after (stays | hasMoved) eaten
          · exact Or.inr (movesFirst test member before after stays eaten)
          · exact Or.inr (keptFirst test member before after hasMoved eaten)
        obtain ⟨middle, stays | hasMoved, goesOn⟩ :=
          first.firstMatch_reaches keptEither (Or.inl holds) matched
        · exact secondIH secondConsumes movesSecond keptSecond stays goesOn
        · exact second.firstMatch_reaches keptSecond hasMoved goesOn
  | alt preferred other preferredIH otherIH =>
      obtain ⟨movesPreferred, movesOther⟩ := List.forall_mem_append.mp moves
      obtain ⟨keptPreferred, keptOther⟩ := List.forall_mem_append.mp kept
      obtain ⟨preferredConsumes, otherConsumes⟩ := Bool.and_eq_true_iff.mp consumes
      rw [firstMatch] at matched
      split at matched
      · next success =>
          exact
            preferredIH preferredConsumes movesPreferred keptPreferred holds
              (success.trans matched)
      · exact otherIH otherConsumes movesOther keptOther holds matched
  | _ => cases consumes

/-- A match goes over some of the characters that come, each of which a test accepts. -/
theorem firstMatch_stretch
    (pattern : Pattern) {passed coming : List Char}
    {rest : Cursor → Option α} {found : α}
    (matched : pattern.firstMatch (Cursor.between passed coming) rest = some found) :
    ∃ stretch ahead,
      stretch ++ ahead = coming ∧
      (∀ character ∈ stretch, pattern.accepts character = true) ∧
      (pattern.consumes = true → stretch ≠ []) ∧
      rest (Cursor.between (passed ++ stretch) ahead) = some found := by
  -- The places behind the start, by the stretch between.
  let behind (length : Nat) (place : Cursor) : Prop :=
    ∃ stretch ahead,
      stretch ++ ahead = coming ∧ length ≤ stretch.length ∧
      (∀ character ∈ stretch, pattern.accepts character = true) ∧
      place = Cursor.between (passed ++ stretch) ahead
  have eats {least more : Nat} (enough : more ≤ least + 1) :
      ∀ test ∈ pattern.tests, ∀ cursor after : Cursor,
        behind least cursor → cursor.eat? test = some after → behind more after := by
    rintro test member cursor after ⟨stretch, ahead, whole, long, accepted, rfl⟩ eaten
    cases ahead with
    | nil => simp at eaten
    | cons character ahead =>
        rw [eat?_between_cons] at eaten
        split at eaten
        · next passes =>
            cases eaten
            have acceptedHere : pattern.accepts character = true :=
              List.any_eq_true.mpr ⟨test, member, passes⟩
            refine
              ⟨stretch ++ [character], ahead, by simpa using whole,
                by simp; omega, ?_, by simp⟩
            rw [List.forall_mem_append]
            exact ⟨accepted, by simpa using acceptedHere⟩
        · cases eaten
  have start : behind 0 (Cursor.between passed coming) :=
    ⟨[], coming, rfl, Nat.le_refl 0, by simp, by simp⟩
  by_cases consumes : pattern.consumes = true
  · obtain ⟨after, ⟨stretch, ahead, whole, long, accepted, rfl⟩, success⟩ :=
      pattern.firstMatch_moves consumes (eats (Nat.le_refl 1)) (eats (by omega))
        start matched
    exact
      ⟨stretch, ahead, whole, accepted,
        fun _ => List.ne_nil_of_length_pos long, success⟩
  · obtain ⟨after, ⟨stretch, ahead, whole, _, accepted, rfl⟩, success⟩ :=
      pattern.firstMatch_reaches (eats (Nat.zero_le _)) start matched
    exact
      ⟨stretch, ahead, whole, accepted, fun holds => absurd holds consumes, success⟩

end Pattern

/-- Eating a character does not lead back. -/
theorem Cursor.keptBy_le_offset (least : Nat) (test : CharTest) :
    Cursor.KeptBy test fun place => least ≤ place.offset := by
  intro cursor after behind eaten
  unfold Cursor.eat? at eaten
  split at eaten
  · cases eaten
  · split at eaten
    · cases eaten
      exact Nat.le_add_right_of_le behind
    · cases eaten

namespace Rule

/-- What a rule finds at a place starts there or later and stops where the match ended or
earlier. -/
theorem find_inOrder
    {rule : Rule} {cursor after : Cursor} {claim : Claim}
    (finds : rule.find cursor = some (claim, after)) :
    cursor.offset ≤ claim.start ∧ claim.start ≤ claim.stop ∧
      claim.stop ≤ after.offset := by
  have onward (pattern : Pattern) {place : Cursor} {rest} {found : Claim × Cursor}
      (matched : pattern.firstMatch place rest = some found) :
      ∃ behind : Cursor, place.offset ≤ behind.offset ∧ rest behind = some found :=
    pattern.firstMatch_reaches (fun test _ => Cursor.keptBy_le_offset _ test)
      (Nat.le_refl _) matched
  cases rule with
  | whole pattern tokenClass =>
      obtain ⟨stop, ordered, same⟩ := onward pattern finds
      cases same
      exact ⟨Nat.le_refl _, ordered, Nat.le_refl _⟩
  | inner lead target follow tokenClass =>
      obtain ⟨start, leadOrdered, finds⟩ := onward lead finds
      obtain ⟨stop, targetOrdered, finds⟩ := onward target finds
      obtain ⟨resume, followOrdered, same⟩ := onward follow finds
      cases same
      exact ⟨leadOrdered, targetOrdered, followOrdered⟩
  | firstOf parts =>
      obtain ⟨⟨pattern, tokenClass⟩, _, fits⟩ :=
        List.exists_of_findSome?_eq_some finds
      obtain ⟨stop, ordered, same⟩ := onward pattern fits
      cases same
      exact ⟨Nat.le_refl _, ordered, Nat.le_refl _⟩

/-- A rule finds its tokens from left to right, one behind the other. -/
theorem scanFrom_inOrder
    (rule : Rule) (tries : Nat) (cursor : Cursor) :
    (∀ claim ∈ scanFrom (fun place => rule.find place) tries cursor,
      cursor.offset ≤ claim.start ∧ claim.start ≤ claim.stop) ∧
      (scanFrom (fun place => rule.find place) tries cursor).Pairwise
        fun left right => left.stop ≤ right.start := by
  induction tries generalizing cursor with
  | zero => exact ⟨by simp [scanFrom], by simp [scanFrom]⟩
  | succ tries ih =>
      rw [scanFrom]
      split
      · next found after here =>
          obtain ⟨starts, nonempty, stops⟩ :=
            find_inOrder (Option.filter_eq_some_iff.mp here).1
          obtain ⟨laterStart, laterApart⟩ := ih after
          refine ⟨?_, List.pairwise_cons.mpr ⟨?_, laterApart⟩⟩
          · refine List.forall_mem_cons.mpr ⟨⟨starts, nonempty⟩, ?_⟩
            intro claim member
            have behind := laterStart claim member
            exact ⟨by omega, behind.2⟩
          · intro claim member
            have behind := laterStart claim member
            omega
      · split
        · next after moved =>
            obtain ⟨laterStart, laterApart⟩ := ih after
            rw [Cursor.next?_eq_eat?] at moved
            have onward : cursor.offset ≤ after.offset :=
              Cursor.keptBy_le_offset _ _ cursor after (Nat.le_refl _) moved
            refine ⟨fun claim member => ?_, laterApart⟩
            have behind := laterStart claim member
            exact ⟨by omega, behind.2⟩
        · exact ⟨by simp, by simp⟩

/-- The stretches that a rule asks for lie one behind the other. -/
theorem pairwise_claims (rule : Rule) (text : List Char) :
    (rule.claims text).Pairwise fun left right => left.stop ≤ right.start :=
  (rule.scanFrom_inOrder _ _).2

end Rule

end SourcePreview
