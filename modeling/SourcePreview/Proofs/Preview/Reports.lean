import SourcePreview.Preview.Report
import SourcePreview.Proofs.Cache.Entry
import SourcePreview.Proofs.Json.Texts

/-!
# What reports carry

A report is one JSON object and a line feed.  Among its members are the status and the time of the
preview, and the record of the styled text is read from the others as it was, with these two
members or without them.
-/

namespace SourcePreview

namespace Report

/-- The members that are not those of the styled text. -/
def ownNames : List String := ["status", "elapsed_ms"]

/-- The members of a report. -/
def members (outcome : Outcome) (elapsedMs : Nat) : List (String × Json) :=
  ("status", Json.ofText outcome.status.label) ::
    ("elapsed_ms", Json.ofNat elapsedMs) :: Json.membersOfStyledText outcome.styled

section

variable (outcome : Outcome) (elapsedMs : Nat)

theorem nodup_members : ((members outcome elapsedMs).map Prod.fst).Nodup := by
  simp [members, Json.membersOfStyledText]

theorem written_document : Json.Written (document outcome elapsedMs) := by
  refine Json.written_ofMembers fun member inside => ?_
  rcases List.mem_cons.mp inside with rfl | inside
  · exact Json.written_ofText _
  rcases List.mem_cons.mp inside with rfl | inside
  · exact Json.written_ofNat _
  · exact Json.written_of_mem_membersOfStyledText inside

/-- The status and the time are found under their names. -/
theorem fields?_document :
    Json.fields? ownNames (document outcome elapsedMs) =
      some [some (Json.ofText outcome.status.label), some (Json.ofNat elapsedMs)] :=
  Json.fields?_ofMembers_of_subset (nodup_members outcome elapsedMs)
    (List.take_subset 2 (members outcome elapsedMs))

/-- The other members of a report do not matter to the record of the styled text. -/
theorem styledText?_document :
    Json.styledText? (document outcome elapsedMs) = some outcome.styled :=
  Json.styledText?_ofMembers_of_subset (nodup_members outcome elapsedMs)
    (List.drop_subset 2 (members outcome elapsedMs))

/-- Without its own members a report is the record of the styled text. -/
theorem filter_members :
    (members outcome elapsedMs).filter (fun member => decide (member.1 ∉ ownNames)) =
      Json.membersOfStyledText outcome.styled := by
  simp [members, ownNames, Json.membersOfStyledText]

end

/-- A report is a JSON object and a line feed.  It is read as an object in which no name is given
twice, with the status and the time under their names, and from which the styled text is read as
it was, whether these two members are passed over or left out. -/
theorem bytes_carry_outcome (outcome : Outcome) (elapsedMs : Nat) :
    ∃ object named,
      bytes outcome elapsedMs = object ++ [0x0A] ∧ Json.IsObjectText object ∧
        Json.parse? (bytes outcome elapsedMs) = some (Json.ofMembers named) ∧
        (named.map Prod.fst).Nodup ∧
        (∃ status elapsed,
          Json.fields? ["status", "elapsed_ms"] (Json.ofMembers named) =
              some [some status, some elapsed] ∧
            status.text? = some outcome.status.label ∧ elapsed.nat? = some elapsedMs) ∧
        Json.styledText? (Json.ofMembers named) = some outcome.styled ∧
        Json.styledText?
            (Json.ofMembers
              (named.filter fun member => decide (member.1 ∉ ["status", "elapsed_ms"]))) =
          some outcome.styled := by
  have spells := Json.spells_pretty _ (written_document outcome elapsedMs) 0
  have lineFeed : Json.IsGap [0x0A] := by
    simp [Json.IsGap, Json.isSpace]
  refine ⟨_, members outcome elapsedMs, rfl, Json.isObjectText_of_spells spells, ?_,
    nodup_members outcome elapsedMs, ?_, styledText?_document outcome elapsedMs, ?_⟩
  · exact Json.parse?_of_spells spells Json.isGap_nil lineFeed
  · exact
      ⟨_, _, fields?_document outcome elapsedMs, Json.text?_ofText _, Json.nat?_ofNat elapsedMs⟩
  · rw [show ["status", "elapsed_ms"] = ownNames from rfl, filter_members]
    exact Json.styledText?_ofMembers outcome.styled

end Report

end SourcePreview
