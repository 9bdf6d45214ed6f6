/-!
# Token classes and spans

A span gives one stretch of a text a token class.  Its offsets count characters, and it covers
the characters from `start` up to but not including `stop`.
-/

namespace SourcePreview

/-- What a stretch of text is, as far as its colour is concerned. -/
inductive TokenClass where
  | comment
  | string
  | number
  | keyword
  | type
  | builtin
  | tag
  | plain
deriving DecidableEq, Repr, Inhabited

namespace TokenClass

/-- Every token class, in the order in which themes and entries list them. -/
def all : List TokenClass :=
  [.comment, .string, .number, .keyword, .type, .builtin, .tag, .plain]

/-- The name of a token class in themes, entries and reports. -/
def name : TokenClass → String
  | .comment => "comment"
  | .string => "string"
  | .number => "number"
  | .keyword => "keyword"
  | .type => "type"
  | .builtin => "builtin"
  | .tag => "tag"
  | .plain => "plain"

/-- The token class of a name. -/
def ofName? (name : String) : Option TokenClass :=
  all.find? fun tokenClass => tokenClass.name == name

@[simp]
theorem ofName?_name (tokenClass : TokenClass) : ofName? tokenClass.name = some tokenClass := by
  cases tokenClass <;> decide

end TokenClass

/-- A stretch of a text with its token class. -/
structure Span where
  /-- The index of the first character. -/
  start : Nat
  /-- The index just past the last character. -/
  stop : Nat
  /-- The class of the stretch. -/
  tokenClass : TokenClass
deriving DecidableEq, Repr, Inhabited

/-- Whether a span covers no character. -/
def Span.isEmpty (span : Span) : Bool :=
  span.stop ≤ span.start

/-- Whether spans are non-empty, in order and apart from each other, start at `least` or later and
end by `length`. -/
def Span.wellFormedFrom (length : Nat) : (least : Nat) → List Span → Bool
  | _, [] => true
  | least, span :: spans =>
    least ≤ span.start && span.start < span.stop && span.stop ≤ length &&
      wellFormedFrom length span.stop spans

/-- Whether spans are non-empty, in order, apart from each other and inside a text of so many
characters. -/
def Span.wellFormed (length : Nat) (spans : List Span) : Bool :=
  Span.wellFormedFrom length 0 spans

end SourcePreview
