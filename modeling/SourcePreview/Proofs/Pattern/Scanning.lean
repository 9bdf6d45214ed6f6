import SourcePreview.Proofs.Pattern.Preference
import SourcePreview.Proofs.Pattern.Stretches

/-!
# Scanning from a place on

What a rule asks for from a place on does not depend on how many tries the scan has left, so a
scan can be cut at any place that it comes to.  It comes to the place behind each match, and to
the next place where nothing is found.  A rule that cannot match over some character comes to the
place behind each such character, whatever it has found before.

Seen as a relation between a text and what is reported of it, a scan reports exactly what is found
by a match that is not empty, except where a match from an earlier place goes over the beginning.
-/

namespace SourcePreview

/-- Of two ways to cut a text, the first cuts inside the front of the second or behind it. -/
theorem Text.cut_inside_or_behind
    {front back first rest : List Char} (same : front ++ back = first ++ rest) :
    (∃ beyond, beyond ≠ [] ∧ first = front ++ beyond ∧ back = beyond ++ rest) ∨
      ∃ further, front = first ++ further ∧ rest = further ++ back := by
  rcases List.append_eq_append_iff.mp same with ⟨beyond, inFirst, inBack⟩ | behind
  · rcases eq_or_ne beyond [] with rfl | nonempty
    · exact .inr ⟨[], by simpa using inFirst.symm, by simpa using inBack.symm⟩
    · exact .inl ⟨beyond, nonempty, inFirst, inBack⟩
  · exact .inr behind

namespace Rule

open Cursor

variable {rule : Rule}

/-- What a rule asks for from a place on. -/
def claimsFrom (rule : Rule) (cursor : Cursor) : List Claim :=
  scanFrom (fun place => rule.find place) (cursor.remaining + 1) cursor

theorem claims_eq_claimsFrom (rule : Rule) (text : List Char) :
    rule.claims text = rule.claimsFrom (between [] text) := rfl

/-- A scan does not depend on its number of tries if there is one for each place. -/
theorem scanFrom_congr_tries
    {passed coming : List Char} {tries others : Nat}
    (enough : coming.length < tries) (othersEnough : coming.length < others) :
    scanFrom (fun place => rule.find place) tries (between passed coming) =
      scanFrom (fun place => rule.find place) others (between passed coming) := by
  induction tries generalizing passed coming others with
  | zero => omega
  | succ tries ih =>
      obtain ⟨others, rfl⟩ : ∃ fewer, others = fewer + 1 := ⟨others - 1, by omega⟩
      rw [scanFrom, scanFrom]
      split
      · next found after here =>
          obtain ⟨finds, moved⟩ := Option.filter_eq_some_iff.mp here
          have inText : (between passed coming).IsIn (passed ++ coming) :=
            ⟨passed, coming, rfl, rfl⟩
          obtain ⟨front, back, _, rfl⟩ := (find_isIn inText finds).2
          have shorter : back.length < coming.length := of_decide_eq_true moved
          exact congrArg (found :: ·) (ih (by omega) (by omega))
      · cases coming with
        | nil => rfl
        | cons character rest =>
            have longEnough : rest.length + 1 < tries + 1 := enough
            have othersLongEnough : rest.length + 1 < others + 1 := othersEnough
            simp only [next?_eq_eat?, eat?_between_cons, if_true]
            exact ih (by omega) (by omega)

theorem claimsFrom_eq_scanFrom
    {passed coming : List Char} {tries : Nat} (enough : coming.length < tries) :
    rule.claimsFrom (between passed coming) =
      scanFrom (fun place => rule.find place) tries (between passed coming) :=
  scanFrom_congr_tries (Nat.lt_succ_self _) enough

/-- The scan goes on behind what was found. -/
theorem claimsFrom_found
    {passed stretch ahead : List Char} {claim : Claim} (nonempty : stretch ≠ [])
    (finds : rule.find (between passed (stretch ++ ahead)) =
      some (claim, between (passed ++ stretch) ahead)) :
    rule.claimsFrom (between passed (stretch ++ ahead)) =
      claim :: rule.claimsFrom (between (passed ++ stretch) ahead) := by
  have moved : ahead.length < (stretch ++ ahead).length := by
    have positive := List.length_pos_of_ne_nil nonempty
    rw [List.length_append]
    omega
  have filtered :
      (rule.find (between passed (stretch ++ ahead))).filter
          (fun (_, after) => after.remaining < (between passed (stretch ++ ahead)).remaining) =
        some (claim, between (passed ++ stretch) ahead) := by
    rw [finds, Option.filter_some, if_pos (by simpa using moved)]
  rw [claimsFrom, scanFrom, filtered]
  exact congrArg (claim :: ·) (claimsFrom_eq_scanFrom moved).symm

/-- Where nothing is found but perhaps an empty match the scan goes on behind the next
character. -/
theorem claimsFrom_pass
    {passed rest : List Char} {character : Char}
    (nothing : (rule.find (between passed (character :: rest))).filter
      (fun (_, after) => after.remaining < (between passed (character :: rest)).remaining) = none) :
    rule.claimsFrom (between passed (character :: rest)) =
      rule.claimsFrom (between (passed ++ [character]) rest) := by
  rw [claimsFrom, scanFrom, nothing]
  simp only [next?_eq_eat?, eat?_between_cons, if_true]
  exact (claimsFrom_eq_scanFrom (by simp)).symm

/-- Where nothing is found the scan goes on behind the next character. -/
theorem claimsFrom_step
    {passed rest : List Char} {character : Char}
    (nothing : rule.find (between passed (character :: rest)) = none) :
    rule.claimsFrom (between passed (character :: rest)) =
      rule.claimsFrom (between (passed ++ [character]) rest) :=
  claimsFrom_pass (by rw [nothing, Option.filter_none])

/-- At the end of the text nothing is found. -/
theorem claimsFrom_nil (rule : Rule) (passed : List Char) :
    rule.claimsFrom (between passed []) = [] := by
  have filtered :
      (rule.find (between passed [])).filter
        (fun (_, after) => after.remaining < (between passed []).remaining) = none := by
    simp
  rw [claimsFrom, scanFrom, filtered]
  rfl

/-- Whether a rule finds something by a match that goes over a stretch of a text. -/
structure FindsOver
    (rule : Rule) (passed stretch ahead : List Char) (claim : Claim) : Prop where
  nonempty : stretch ≠ []
  finds : rule.find (between passed (stretch ++ ahead)) =
    some (claim, between (passed ++ stretch) ahead)

/-- How a scan goes over what comes behind some part of a text: it goes on behind each match that
is not empty, and where there is none behind the next character. -/
inductive Scans (rule : Rule) : (passed coming : List Char) → List Claim → Prop where
  | ended (passed : List Char) : rule.Scans passed [] []
  | found {passed stretch ahead : List Char} {claim : Claim} {claims : List Claim} :
      rule.FindsOver passed stretch ahead claim → rule.Scans (passed ++ stretch) ahead claims →
        rule.Scans passed (stretch ++ ahead) (claim :: claims)
  | moved {passed rest : List Char} {character : Char} {claims : List Claim} :
      (∀ stretch ahead claim,
        stretch ++ ahead = character :: rest → ¬ rule.FindsOver passed stretch ahead claim) →
      rule.Scans (passed ++ [character]) rest claims →
        rule.Scans passed (character :: rest) claims

/-- What is found at a place is what the match there goes over, or the match is empty. -/
theorem exists_findsOver_of_filter
    {passed coming : List Char} {claim : Claim} {after : Cursor}
    (here : (rule.find (between passed coming)).filter
      (fun (_, after) => after.remaining < (between passed coming).remaining) =
        some (claim, after)) :
    ∃ stretch ahead,
      stretch ++ ahead = coming ∧ rule.FindsOver passed stretch ahead claim ∧
        after = between (passed ++ stretch) ahead := by
  obtain ⟨finds, moved⟩ := Option.filter_eq_some_iff.mp here
  obtain ⟨front, ahead, whole, rfl⟩ := (find_isIn ⟨passed, coming, rfl, rfl⟩ finds).2
  have shorter : ahead.length < coming.length := of_decide_eq_true moved
  obtain ⟨stretch, rfl, rfl⟩ :
      ∃ stretch, front = passed ++ stretch ∧ coming = stretch ++ ahead := by
    rcases Text.cut_inside_or_behind whole with ⟨back, _, _, inAhead⟩ | behind
    · rw [inAhead, List.length_append] at shorter
      omega
    · exact behind
  refine ⟨stretch, ahead, rfl, ⟨?_, finds⟩, rfl⟩
  rintro rfl
  simp at shorter

theorem scans_claimsFrom (rule : Rule) (passed coming : List Char) :
    rule.Scans passed coming (rule.claimsFrom (between passed coming)) := by
  induction size : coming.length using Nat.strongRecOn generalizing passed coming with
  | ind length ih =>
    cases here : (rule.find (between passed coming)).filter
        (fun (_, after) => after.remaining < (between passed coming).remaining) with
    | some finding =>
        obtain ⟨claim, after⟩ := finding
        obtain ⟨stretch, ahead, rfl, matched, _⟩ := exists_findsOver_of_filter here
        have longer := List.length_pos_of_ne_nil matched.nonempty
        rw [claimsFrom_found matched.nonempty matched.finds]
        rw [List.length_append] at size
        exact .found matched (ih ahead.length (by omega) _ _ rfl)
    | none =>
        cases coming with
        | nil =>
            rw [claimsFrom_nil]
            exact .ended passed
        | cons character rest =>
            rw [claimsFrom_pass here]
            refine .moved ?_ (ih rest.length (by simp at size; omega) _ _ rfl)
            intro stretch ahead claim same matched
            have longer := List.length_pos_of_ne_nil matched.nonempty
            rw [← same, matched.finds, Option.filter_some, if_pos] at here
            · cases here
            · simpa using longer

/-- Everything that a scan reports is found by a match that is not empty. -/
theorem Scans.exists_findsOver
    {passed coming : List Char} {claims : List Claim} (scans : rule.Scans passed coming claims)
    {claim : Claim} (member : claim ∈ claims) :
    ∃ further stretch ahead,
      further ++ (stretch ++ ahead) = coming ∧
        rule.FindsOver (passed ++ further) stretch ahead claim := by
  induction scans with
  | ended passed => cases member
  | @found passed run ahead first claims matched _ ih =>
      rcases List.mem_cons.mp member with rfl | later
      · exact ⟨[], run, ahead, rfl, by simpa using matched⟩
      · obtain ⟨further, stretch, back, rfl, finds⟩ := ih later
        exact ⟨run ++ further, stretch, back, by simp, by simpa using finds⟩
  | @moved passed rest character claims _ _ ih =>
      obtain ⟨further, stretch, ahead, rfl, finds⟩ := ih member
      exact ⟨character :: further, stretch, ahead, rfl, by simpa using finds⟩

/-- A match that is not empty is reported unless one from an earlier place goes over its
beginning. -/
theorem Scans.mem_or_exists_findsOver
    {passed coming : List Char} {claims : List Claim} (scans : rule.Scans passed coming claims)
    {front stretch ahead : List Char} {claim : Claim}
    (whole : front ++ (stretch ++ ahead) = coming)
    (matched : rule.FindsOver (passed ++ front) stretch ahead claim) :
    claim ∈ claims ∨
      ∃ earlier later beyond back other,
        earlier ++ later = front ∧ later ≠ [] ∧ beyond ++ back = stretch ++ ahead ∧ beyond ≠ [] ∧
          rule.FindsOver (passed ++ earlier) (later ++ beyond) back other := by
  induction scans generalizing front with
  | ended passed => simp [matched.nonempty] at whole
  | @found passed run coming first claims runOver _ ih =>
      rcases Text.cut_inside_or_behind whole with
        ⟨beyond, nonempty, rfl, same⟩ | ⟨further, rfl, same⟩
      · cases front with
        | nil =>
            left
            have finds := matched.finds
            rw [List.nil_append] at whole
            rw [List.append_nil, whole, runOver.finds] at finds
            obtain ⟨rfl, _⟩ := Prod.mk.inj (Option.some.inj finds)
            exact List.mem_cons_self
        | cons character front =>
            right
            exact
              ⟨[], character :: front, beyond, coming, first, rfl, List.cons_ne_nil _ _,
                same.symm, nonempty, by simpa using runOver⟩
      · rcases ih same.symm (by simpa using matched) with
          member | ⟨earlier, later, beyond, back, other, rfl, covered⟩
        · exact .inl (List.mem_cons_of_mem _ member)
        · exact
            .inr ⟨run ++ earlier, later, beyond, back, other, by simp, by simpa using covered⟩
  | @moved passed rest character claims nothing _ ih =>
      cases front with
      | nil => exact absurd (by simpa using matched) (nothing stretch ahead claim whole)
      | cons first front =>
          obtain ⟨rfl, rfl⟩ := List.cons.inj whole
          rcases ih rfl (by simpa using matched) with
            member | ⟨earlier, later, beyond, back, other, rfl, covered⟩
          · exact .inl member
          · exact
              .inr ⟨first :: earlier, later, beyond, back, other, rfl, by simpa using covered⟩

/-- Whether a rule finds nothing except in front of characters that pass a test. -/
def StartsBy (rule : Rule) (test : CharTest) : Prop :=
  ∀ passed coming : List Char,
    CharTest.Refuses test coming → rule.find (between passed coming) = none

/-- A scan passes the characters that nothing starts by. -/
theorem StartsBy.claimsFrom_skip
    {test : CharTest} (starts : rule.StartsBy test)
    {stretch : List Char} (refused : ∀ character ∈ stretch, test character = false)
    (passed ahead : List Char) :
    rule.claimsFrom (between passed (stretch ++ ahead)) =
      rule.claimsFrom (between (passed ++ stretch) ahead) := by
  induction stretch generalizing passed with
  | nil => simp
  | cons character stretch ih =>
      obtain ⟨refusedHere, refusedLater⟩ := List.forall_mem_cons.mp refused
      rw [List.cons_append, claimsFrom_step (starts _ _ (CharTest.refuses_cons refusedHere _)),
        ih refusedLater, List.append_assoc, List.singleton_append]

/-- If no match of a pattern goes over a mark, then what is found in front of the mark ends there,
and the scan goes on behind the mark. -/
theorem exists_claimsFrom_whole_mark
    {pattern : Pattern} (consumes : pattern.consumes = true)
    {mark : Char} (refused : pattern.accepts mark = false) (tokenClass : TokenClass)
    (passed run ahead : List Char) :
    ∃ inside,
      (whole pattern tokenClass).claimsFrom (between passed (run ++ mark :: ahead)) =
          inside ++
            (whole pattern tokenClass).claimsFrom (between (passed ++ run ++ [mark]) ahead) ∧
        ∀ claim ∈ inside,
          Text.byteLength passed ≤ claim.start ∧
            claim.stop ≤ Text.byteLength (passed ++ run) := by
  induction size : run.length using Nat.strongRecOn generalizing passed run with
  | ind length ih =>
    cases found : (whole pattern tokenClass).find (between passed (run ++ mark :: ahead)) with
    | none =>
        cases run with
        | nil => exact ⟨[], by simpa using claimsFrom_step found, by simp⟩
        | cons character run =>
            obtain ⟨inside, cut, within⟩ :=
              ih run.length (by simp at size; omega) (passed ++ [character]) run rfl
            refine ⟨inside, ?_, fun claim member => ?_⟩
            · refine (claimsFrom_step found).trans (cut.trans ?_)
              simp
            · have bounds := within claim member
              simp only [Text.byteLength_append, Text.byteLength_cons,
                Text.byteLength_nil] at bounds ⊢
              omega
    | some finding =>
        obtain ⟨stretch, back, whole, accepted, nonempty, same⟩ :=
          pattern.firstMatch_stretch found
        obtain ⟨further, rfl, rfl⟩ :
            ∃ further, run = stretch ++ further ∧ back = further ++ mark :: ahead := by
          rcases Text.cut_inside_or_behind whole.symm with
            ⟨overlap, notNothing, across, rest⟩ | behind
          · obtain ⟨first, overlap, rfl⟩ := List.exists_cons_of_ne_nil notNothing
            cases rest
            have markAccepted := accepted mark (by simp [across])
            rw [refused] at markAccepted
            cases markAccepted
          · exact behind
        have longer := List.length_pos_of_ne_nil (nonempty consumes)
        obtain ⟨inside, cut, within⟩ :=
          ih further.length (by simp at size; omega) (passed ++ stretch) further rfl
        cases same
        rw [List.append_assoc] at found ⊢
        refine
          ⟨⟨Text.byteLength passed, Text.byteLength (passed ++ stretch), tokenClass⟩ :: inside,
            ?_, ?_⟩
        · rw [claimsFrom_found (nonempty consumes) found, cut]
          simp
        · refine List.forall_mem_cons.mpr ⟨?_, fun claim member => ?_⟩
          · simp only [Text.byteLength_append]
            omega
          · have bounds := within claim member
            simp only [Text.byteLength_append] at bounds ⊢
            omega

end Rule

end SourcePreview
