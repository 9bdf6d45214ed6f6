import SourcePreview.Cache.Tier
import SourcePreview.StyledText

/-!
# Outcomes of previews

Every preview ends in a styled text and a status that says how it came about.  Only a preview
whose highlighting was skipped or given up counts as degraded.
-/

namespace SourcePreview

/-- Why a text is shown without highlighting although its language has rules. -/
inductive DegradeReason where
  /-- The text has more lines than the request allows. -/
  | tooManyLines (lines maxLines : Nat)
  /-- There was no answer in time, or no answer at all. -/
  | deadlineExceeded
deriving DecidableEq, Repr

/-- How a preview came about. -/
inductive Status where
  /-- It was found in the cache. -/
  | cacheHit (tier : Tier)
  /-- It was made by the highlighter. -/
  | highlighted
  /-- Its language is not highlighted at all. -/
  | unsupported
  /-- Highlighting was skipped or given up. -/
  | degraded (reason : DegradeReason)
deriving DecidableEq, Repr

namespace Status

/-- The name of a status in reports. -/
def label : Status → String
  | .cacheHit .memory => "cache-hit-memory"
  | .cacheHit .disk => "cache-hit-disk"
  | .highlighted => "highlighted"
  | .unsupported => "unsupported"
  | .degraded (.tooManyLines _ _) => "degraded-too-many-lines"
  | .degraded .deadlineExceeded => "degraded-deadline"

/-- Whether highlighting was skipped or given up. -/
def isDegraded : Status → Bool
  | .degraded _ => true
  | _ => false

/-- Whether the preview was found in the cache. -/
def isCacheHit : Status → Bool
  | .cacheHit _ => true
  | _ => false

end Status

/-- A finished preview. -/
structure Outcome where
  styled : StyledText
  status : Status
deriving DecidableEq, Repr

end SourcePreview
