import SourcePreview.Highlight.Run

/-!
# Highlighters

A highlighter is given a text and a deadline.  It may finish with spans, stop without any, fail,
or go on beyond the deadline.
-/

namespace SourcePreview

/-- How long something may take. -/
inductive Deadline where
  | milliseconds (count : Nat)
  /-- As long as it needs. -/
  | unlimited
deriving DecidableEq, Repr

/-- Whether a deadline is over as soon as it is set. -/
def Deadline.isOver : Deadline → Bool
  | .milliseconds count => count == 0
  | .unlimited => false

/-- How the work on a text ends. -/
inductive Work where
  | finished (spans : List Span)
  /-- The work was called off or gave nothing. -/
  | stopped
  /-- The work broke down. -/
  | failed
  /-- The work was not over in time. -/
  | overran
deriving DecidableEq, Repr

/-- The spans of finished work. -/
def Work.spans? : Work → Option (List Span)
  | .finished spans => some spans
  | _ => none

/-- Something that finds the spans of texts. -/
structure Highlighter where
  /-- Whether it knows a language. -/
  supports : Language → Bool
  /-- The work on a text. -/
  run : Language → String → Deadline → Work

/-- The highlighter of the rule tables.  It is called off before its first rule if the deadline
is over by then, and finishes in time otherwise. -/
def Highlighter.patterns : Highlighter where
  supports := Highlight.supports
  run language text deadline :=
    match Highlight.spans? language text fun _ => deadline.isOver with
    | some spans => .finished spans
    | none => .stopped

end SourcePreview
