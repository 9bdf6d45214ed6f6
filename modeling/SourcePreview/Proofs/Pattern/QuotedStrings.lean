import SourcePreview.Highlight.Fragments
import SourcePreview.Proofs.Pattern.Preference

/-!
# Strings between double quotes

A string on one line goes on over plain characters and over pairs of a backslash and another
character.  It can end in one way only: at the first quote that no backslash takes with it.
-/

namespace SourcePreview

open Cursor

/-- Characters that a string on one line goes on over: none of them closes it. -/
inductive GoesOn : List Char → Prop where
  | nil : GoesOn []
  | plain {character : Char} {rest : List Char}
      (notMark : character ≠ '"') (notBackslash : character ≠ '\\') (inLine : character ≠ '\n')
      (goesOn : GoesOn rest) :
      GoesOn (character :: rest)
  | pair {character : Char} {rest : List Char}
      (inLine : character ≠ '\n') (goesOn : GoesOn rest) :
      GoesOn ('\\' :: character :: rest)

/-- Plain characters followed by characters that a string goes on over. -/
theorem GoesOn.append_plain
    {run rest : List Char}
    (plain : ∀ character ∈ run, character ≠ '"' ∧ character ≠ '\\' ∧ character ≠ '\n')
    (goesOn : GoesOn rest) :
    GoesOn (run ++ rest) := by
  induction run with
  | nil => exact goesOn
  | cons character run ih =>
      obtain ⟨⟨notMark, notBackslash, inLine⟩, others⟩ := List.forall_mem_cons.mp plain
      exact GoesOn.plain notMark notBackslash inLine (ih others)

namespace Fragment

/-- The steps that a string between double quotes goes on by. -/
def doubleQuotedUnits : List (List CharTest) :=
  [[.outside (String.ofList ['"', '\\', '\n'])], [.only '\\', .inLine]]

theorem doubleQuoted_eq :
    doubleQuoted =
      .next (.only '"')
        (.seq (.units doubleQuotedUnits) (.next (.only '"') .empty)) := rfl

theorem outside_iff (character : Char) :
    CharTest.outside (String.ofList ['"', '\\', '\n']) character = true ↔
      character ≠ '"' ∧ character ≠ '\\' ∧ character ≠ '\n' := by
  simp [CharTest.outside, CharTest.isMember]

/-- A plain character is a step of its own. -/
theorem eatUnit?_plain
    {character : Char}
    (notMark : character ≠ '"') (notBackslash : character ≠ '\\') (inLine : character ≠ '\n')
    (passed rest : List Char) :
    (between passed (character :: rest)).eatUnit? doubleQuotedUnits =
      some (between (passed ++ [character]) rest) := by
  have plain := (outside_iff character).mpr ⟨notMark, notBackslash, inLine⟩
  simp [doubleQuotedUnits, eatUnit?, eatAll?, plain]

/-- A backslash takes the next character with it. -/
theorem eatUnit?_pair
    {character : Char} (inLine : character ≠ '\n') (passed rest : List Char) :
    (between passed ('\\' :: character :: rest)).eatUnit? doubleQuotedUnits =
      some (between (passed ++ ['\\', character]) rest) := by
  have notPlain : CharTest.outside (String.ofList ['"', '\\', '\n']) '\\' = false := by
    decide
  simp [doubleQuotedUnits, eatUnit?, eatAll?, notPlain, CharTest.only, CharTest.inLine, inLine]

/-- At a quote, at the end of a line and at the end of the text there is no step. -/
theorem eatUnit?_eq_none
    {ahead : List Char}
    (stops : ∀ character ∈ ahead.head?, character = '"' ∨ character = '\n')
    (passed : List Char) :
    (between passed ahead).eatUnit? doubleQuotedUnits = none := by
  cases ahead with
  | nil => simp [doubleQuotedUnits, eatUnit?, eatAll?]
  | cons character ahead =>
      rcases stops character (by simp) with rfl | rfl
      · have notPlain : CharTest.outside (String.ofList ['"', '\\', '\n']) '"' = false := by
          decide
        simp [doubleQuotedUnits, eatUnit?, eatAll?, notPlain, CharTest.only]
      · have notPlain : CharTest.outside (String.ofList ['"', '\\', '\n']) '\n' = false := by
          decide
        simp [doubleQuotedUnits, eatUnit?, eatAll?, notPlain, CharTest.only]

/-- The places passed inside a string: where it cannot go on comes first, and behind the others
there is no quote. -/
theorem trail_between
    {run ahead : List Char} (goesOn : GoesOn run)
    (stops : ∀ character ∈ ahead.head?, character = '"' ∨ character = '\n')
    (passed : List Char) (rounds : Nat) (enough : run.length ≤ rounds)
    (before : List Cursor) :
    ∃ earlier,
      (between passed (run ++ ahead)).trail doubleQuotedUnits rounds before =
          between (passed ++ run) ahead :: (earlier ++ before) ∧
        ∀ place ∈ earlier, ∃ front character back,
          character ≠ '"' ∧ place = between front (character :: back) := by
  induction goesOn generalizing passed rounds before with
  | nil =>
      refine ⟨[], ?_, by simp⟩
      cases rounds with
      | zero => simp [trail]
      | succ rounds => simp [trail, eatUnit?_eq_none stops]
  | @plain character rest notMark notBackslash inLine _ ih =>
      cases rounds with
      | zero => simp at enough
      | succ rounds =>
          let cursor := between passed (character :: (rest ++ ahead))
          obtain ⟨earlier, trailed, within⟩ :=
            ih (passed ++ [character]) rounds (by simpa using enough) (cursor :: before)
          refine ⟨earlier ++ [cursor], ?_, ?_⟩
          · simpa [trail, eatUnit?_plain notMark notBackslash inLine, cursor] using trailed
          · rw [List.forall_mem_append]
            exact ⟨within, List.forall_mem_singleton.mpr ⟨_, _, _, notMark, rfl⟩⟩
  | @pair character rest inLine _ ih =>
      cases rounds with
      | zero => simp at enough
      | succ rounds =>
          let cursor := between passed ('\\' :: character :: (rest ++ ahead))
          obtain ⟨earlier, trailed, within⟩ :=
            ih (passed ++ ['\\', character]) rounds
              (by simp only [List.length_cons] at enough; omega) (cursor :: before)
          refine ⟨earlier ++ [cursor], ?_, ?_⟩
          · simpa [trail, eatUnit?_pair inLine, cursor] using trailed
          · rw [List.forall_mem_append]
            exact ⟨within, List.forall_mem_singleton.mpr ⟨_, _, _, by decide, rfl⟩⟩

/-- From an opening quote on, a string leads to where it cannot go on, and a quote has to stand
there. -/
theorem firstMatch_doubleQuoted
    {α : Type} {run ahead : List Char} (goesOn : GoesOn run)
    (stops : ∀ character ∈ ahead.head?, character = '"' ∨ character = '\n')
    (passed : List Char) (rest : Cursor → Option α) :
    doubleQuoted.firstMatch (between passed ('"' :: (run ++ ahead))) rest =
      (Pattern.next (.only '"') .empty).firstMatch
        (between (passed ++ ['"'] ++ run) ahead) rest := by
  let close (place : Cursor) := (Pattern.next (.only '"') .empty).firstMatch place rest
  obtain ⟨earlier, trailed, within⟩ :=
    trail_between goesOn stops (passed ++ ['"']) (run ++ ahead).length (by simp) []
  have noneEarlier : earlier.findSome? close = none := by
    rw [List.findSome?_eq_none_iff]
    intro place member
    obtain ⟨front, character, back, notMark, rfl⟩ := within place member
    simp [close, Pattern.firstMatch_next_cons, CharTest.only, notMark]
  have opened :
      doubleQuoted.firstMatch (between passed ('"' :: (run ++ ahead))) rest =
        (Pattern.units doubleQuotedUnits).firstMatch
          (between (passed ++ ['"']) (run ++ ahead)) close := by
    rw [doubleQuoted_eq, Pattern.firstMatch_next_cons]
    rfl
  rw [opened, Pattern.firstMatch.eq_def]
  simp only [remaining_between]
  rw [trailed, List.append_nil, List.findSome?_cons, noneEarlier]
  cases closed : close (between (passed ++ ['"'] ++ run) ahead) <;> exact closed.symm

/-- A string ends behind the first quote that closes it, and nowhere else. -/
theorem endsAt_doubleQuoted
    {run : List Char} (goesOn : GoesOn run) (passed ahead : List Char) :
    doubleQuoted.EndsAt passed ('"' :: (run ++ ['"'])) ahead := by
  intro α rest
  have closes :
      ∀ character ∈ ('"' :: ahead).head?, character = '"' ∨ character = '\n' := by
    simp
  have opened := firstMatch_doubleQuoted goesOn closes passed rest
  rw [Pattern.firstMatch_next_cons] at opened
  simpa [Pattern.firstMatch, CharTest.only] using opened

/-- A string that is not closed on its line is none. -/
theorem fails_doubleQuoted_unclosed
    {run ahead : List Char} (goesOn : GoesOn run)
    (stops : ∀ character ∈ ahead.head?, character = '\n') (passed : List Char) :
    doubleQuoted.Fails passed ('"' :: (run ++ ahead)) := by
  intro α rest
  rw [firstMatch_doubleQuoted goesOn fun character member => Or.inr (stops character member)]
  refine Pattern.fails_next (fun character member => ?_) α rest
  rw [stops character member]
  decide

/-- A string starts with a quote. -/
theorem fails_doubleQuoted
    {coming : List Char} (noMark : ∀ character ∈ coming.head?, character ≠ '"')
    (passed : List Char) :
    doubleQuoted.Fails passed coming := by
  intro α rest
  rw [doubleQuoted_eq]
  exact
    Pattern.fails_next
      (fun character member => CharTest.only_eq_false (noMark character member)) α rest

end Fragment

end SourcePreview
