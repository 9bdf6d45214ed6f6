import SourcePreview.Highlight.ByteOffsets
import SourcePreview.Highlight.Claims
import SourcePreview.Highlight.CompiledTables
import SourcePreview.Highlight.DataTables
import SourcePreview.Highlight.ScriptTables

/-!
# Highlighting a text

The rules of a language are run over the text one after the other, and each token that a rule
finds is taken unless it meets one that was taken before.  Before each rule the run asks whether
it has been called off; if so it ends without any result, and otherwise the taken tokens are
reported in order, by character index.
-/

namespace SourcePreview

/-- The rules of a language, if it has any. -/
def Language.ruleTable? : Language → Option RuleTable
  | .plainText => none
  | .json => some RuleTable.json
  | .yaml => some RuleTable.yaml
  | .toml => some RuleTable.toml
  | .ini => some RuleTable.ini
  | .xml => some RuleTable.xml
  | .plist => some RuleTable.xml
  | .html => some RuleTable.markupCore
  | .css => some RuleTable.css
  | .markdown => some RuleTable.markdown
  | .javaScript => some RuleTable.javaScript
  | .typeScript => some RuleTable.typeScript
  | .rust => some RuleTable.rust
  | .c => some RuleTable.c
  | .cpp => some RuleTable.cpp
  | .go => some RuleTable.go
  | .java => some RuleTable.java
  | .swift => some RuleTable.swift
  | .python => some RuleTable.python
  | .ruby => some RuleTable.ruby
  | .shell => some RuleTable.shell
  | .sql => some RuleTable.sql
  | .makefile => some RuleTable.makefile
  | .dockerfile => some RuleTable.dockerfile

namespace Highlight

/-- Whether the pattern tables cover a language. -/
def supports (language : Language) : Bool :=
  language.ruleTable?.isSome

/-- The rules that are run for a language, in order: all of its table, but no markup for data
markup. -/
def activeRules (language : Language) (table : RuleTable) : List Rule :=
  (table.filter fun entry => !(entry.kind == .markup && language.isDataMarkup)).map (·.rule)

/-- The stretches that the rules ask for, in the order in which they may claim them. -/
def candidates (rules : List Rule) (text : List Char) : List Claim :=
  rules.flatMap fun rule => rule.claims text

/-- The stretches claimed once a rule has asked for its tokens. -/
def applyRule (text : List Char) (claims : Claims) (rule : Rule) : Claims :=
  (rule.claims text).foldl Claims.add claims

/-- Runs rule after rule.  Before each the run is called off if the answer to that poll, counted
from `poll` on, is yes. -/
def runRules
    (calledOff : Nat → Bool)
    (text : List Char) :
    (poll : Nat) → List Rule → Claims → Option Claims
  | _, [], claims => some claims
  | poll, rule :: rules, claims =>
    if calledOff poll then none
    else runRules calledOff text (poll + 1) rules (applyRule text claims rule)

/-- Claimed stretches as spans of characters. -/
def spansOf (text : List Char) (claims : List Claim) : List Span :=
  let offsets := ByteOffsets.ofText text
  claims.map fun claim =>
    ⟨offsets.charIndex claim.start, offsets.charIndex claim.stop, claim.tokenClass⟩

/-- The spans of a text in a language, or nothing if the run was called off; `calledOff` answers
the polls in the order in which they are made. -/
def spans?
    (language : Language)
    (text : String)
    (calledOff : Nat → Bool) : Option (List Span) :=
  match language.ruleTable? with
  | none => some []
  | some table =>
    let characters := text.toList
    (runRules calledOff characters 0 (activeRules language table) Claims.none).map fun claims =>
      spansOf characters claims.toList

/-- The spans of a text in a language when nobody calls the run off. -/
def spans (language : Language) (text : String) : List Span :=
  (spans? language text fun _ => false).getD []

end Highlight

end SourcePreview
