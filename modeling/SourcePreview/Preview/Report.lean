import SourcePreview.Cache.Entry
import SourcePreview.Preview.Outcome

/-!
# Reports

The report of a preview is a JSON object on lines of its own: the status and the time it took,
followed by the members of the record of the styled text.
-/

namespace SourcePreview.Report

/-- The report of an outcome that took so many milliseconds. -/
def document (outcome : Outcome) (elapsedMs : Nat) : Json :=
  Json.ofMembers
    (("status", Json.ofText outcome.status.label) ::
      ("elapsed_ms", Json.ofNat elapsedMs) ::
      Json.membersOfStyledText outcome.styled)

/-- The bytes of a report, with a line feed at the end. -/
def bytes (outcome : Outcome) (elapsedMs : Nat) : Bytes :=
  (document outcome elapsedMs).pretty 0 ++ [0x0A]

end SourcePreview.Report
