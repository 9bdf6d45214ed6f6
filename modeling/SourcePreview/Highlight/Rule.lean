import SourcePreview.Language.Basic
import SourcePreview.Pattern.Build
import SourcePreview.Pattern.Scan
import SourcePreview.Token

/-!
# Highlighting rules

A rule finds tokens of some classes in a text and asks for the stretches that they cover.  The
table of a language lists its rules in the order in which they may claim text.
-/

namespace SourcePreview

/-- What a category of rules is about. -/
inductive CategoryKind where
  /-- Comments and string literals, found together. -/
  | lexical
  /-- Numbers. -/
  | number
  /-- Tags, object keys, headings, attributes and variables. -/
  | markup
  /-- Keywords. -/
  | keyword
  /-- Types. -/
  | type
  /-- Builtin names. -/
  | builtin
deriving DecidableEq, Repr

/-- A way to find tokens. -/
inductive Rule where
  /-- The token is all that the pattern matches. -/
  | whole (pattern : Pattern) (tokenClass : TokenClass)
  /-- The token is what the middle pattern matches between the other two. -/
  | inner (lead target follow : Pattern) (tokenClass : TokenClass)
  /-- The token is all that the first fitting pattern matches, with the class of that pattern. -/
  | firstOf (parts : List (Pattern × TokenClass))

/-- A stretch of a text, in UTF-8 byte offsets, that a token of some class asks for. -/
structure Claim where
  /-- The offset of the first byte. -/
  start : Nat
  /-- The offset just past the last byte. -/
  stop : Nat
  /-- The class of the token. -/
  tokenClass : TokenClass
deriving DecidableEq, Repr, Inhabited

namespace Rule

/-- The stretch of the token that the rule finds when it is tried at a place, and the place where
the match ended. -/
def find (cursor : Cursor) : Rule → Option (Claim × Cursor)
  | .whole pattern tokenClass =>
    pattern.firstMatch cursor fun stop =>
      some (⟨cursor.offset, stop.offset, tokenClass⟩, stop)
  | .inner lead target follow tokenClass =>
    lead.firstMatch cursor fun start =>
      target.firstMatch start fun stop =>
        follow.firstMatch stop fun resume =>
          some (⟨start.offset, stop.offset, tokenClass⟩, resume)
  | .firstOf parts =>
    parts.findSome? fun (pattern, tokenClass) =>
      pattern.firstMatch cursor fun stop =>
        some (⟨cursor.offset, stop.offset, tokenClass⟩, stop)

/-- The stretches of all tokens that the rule finds in a text, from left to right. -/
def claims (rule : Rule) (text : List Char) : List Claim :=
  scan (fun cursor => rule.find cursor) text

end Rule

/-- A rule with the kind of its category. -/
structure RuleEntry where
  /-- What the rule is about. -/
  kind : CategoryKind
  /-- How it finds tokens. -/
  rule : Rule

/-- The rules of a language, the ones with the first say first. -/
abbrev RuleTable := List RuleEntry

namespace RuleEntry

/-- Comments and strings as one rule, so that the one that starts first owns the text. -/
def lexical (parts : List (Pattern × TokenClass)) : RuleEntry :=
  ⟨.lexical, .firstOf parts⟩

/-- Numbers. -/
def numbers (pattern : Pattern) : RuleEntry :=
  ⟨.number, .whole pattern .number⟩

/-- Markup of some class. -/
def markup (tokenClass : TokenClass) (pattern : Pattern) : RuleEntry :=
  ⟨.markup, .whole pattern tokenClass⟩

/-- Markup of some class that is only part of what has to match. -/
def markupWithin
    (tokenClass : TokenClass) (lead target follow : Pattern) : RuleEntry :=
  ⟨.markup, .inner lead target follow tokenClass⟩

/-- Keywords that fit a pattern. -/
def keywordPattern (pattern : Pattern) : RuleEntry :=
  ⟨.keyword, .whole pattern .keyword⟩

/-- Listed keywords. -/
def keywords (listed : List String) : RuleEntry :=
  keywordPattern (.words listed)

/-- Listed keywords, up to the case of their letters. -/
def foldedKeywords (listed : List String) : RuleEntry :=
  keywordPattern (.foldedWords listed)

/-- Types that fit a pattern. -/
def typePattern (pattern : Pattern) : RuleEntry :=
  ⟨.type, .whole pattern .type⟩

/-- Listed types. -/
def types (listed : List String) : RuleEntry :=
  typePattern (.words listed)

/-- Listed types, up to the case of their letters. -/
def foldedTypes (listed : List String) : RuleEntry :=
  typePattern (.foldedWords listed)

/-- Builtin names that fit a pattern. -/
def builtinPattern (pattern : Pattern) : RuleEntry :=
  ⟨.builtin, .whole pattern .builtin⟩

/-- Listed builtin names. -/
def builtins (listed : List String) : RuleEntry :=
  builtinPattern (.words listed)

/-- Listed builtin names, up to the case of their letters. -/
def foldedBuiltins (listed : List String) : RuleEntry :=
  builtinPattern (.foldedWords listed)

end RuleEntry

end SourcePreview
