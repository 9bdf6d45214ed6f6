/-!
# Tiers of the cache

Finished previews are kept in two places: in the memory of the process and on disk.
-/

namespace SourcePreview

/-- A place where finished previews are kept. -/
inductive Tier where
  | memory
  | disk
deriving DecidableEq, Repr

/-- The name of a tier. -/
def Tier.name : Tier → String
  | .memory => "memory"
  | .disk => "disk"

end SourcePreview
