import SourcePreview.Text.WordChar

/-!
# Patterns

A small language of text patterns and its matcher.  A pattern is tried at a place in a text and
offers the places where it may end, the preferred one first: the left branch of a choice before
the right one, one more round of a repetition before stopping.  `Pattern.firstMatch` hands these
ends, in that order, to the rest of the match and returns the first success.

Three kinds of repetition are kept apart.  `Pattern.star` repeats any pattern and may come back to
each round to try another way through it.  `Pattern.many` repeats a test on one character, and
`Pattern.units` repeats fixed sequences of such tests and takes, in each round, the first sequence
that fits; both walk a long literal by a loop that remembers only the places it has passed.
-/

namespace SourcePreview

/-- A test on a single character. -/
abbrev CharTest := Char → Bool

/-- A place in a text. -/
structure Cursor where
  /-- The text from the character before the place on, or nothing at the start of the text. -/
  entered : List Char
  /-- The characters after the place. -/
  ahead : List Char
  /-- How many characters there are after the place. -/
  remaining : Nat
  /-- How many UTF-8 bytes there are before the place. -/
  offset : Nat

namespace Cursor

/-- The beginning of a text. -/
def start (text : List Char) : Cursor :=
  ⟨[], text, text.length, 0⟩

/-- The character before the place, if there is one. -/
def before? (cursor : Cursor) : Option Char :=
  cursor.entered.head?

/-- The place after the next character, if there is one. -/
@[inline]
def next? (cursor : Cursor) : Option Cursor :=
  match cursor.ahead with
  | [] => none
  | character :: rest =>
    some ⟨cursor.ahead, rest, cursor.remaining - 1, cursor.offset + character.utf8Size⟩

/-- The place after one character that passes a test. -/
@[inline]
def eat? (test : CharTest) (cursor : Cursor) : Option Cursor :=
  match cursor.ahead with
  | [] => none
  | character :: rest =>
    if test character then
      some ⟨cursor.ahead, rest, cursor.remaining - 1, cursor.offset + character.utf8Size⟩
    else none

/-- The place after a sequence of characters that pass the tests one by one. -/
def eatAll? : List CharTest → Cursor → Option Cursor
  | [], cursor => some cursor
  | test :: tests, cursor =>
    match cursor.eat? test with
    | some after => eatAll? tests after
    | none => none

/-- The place after the first sequence of tests that fits. -/
def eatUnit? : List (List CharTest) → Cursor → Option Cursor
  | [], _ => none
  | unit :: units, cursor =>
    match cursor.eatAll? unit with
    | some after => some after
    | none => eatUnit? units cursor

/-- The places passed while eating one character after another that passes the test, the
furthest first, before `passed`. -/
def walk
    (test : CharTest) :
    (rounds : Nat) → Cursor → (passed : List Cursor) → List Cursor
  | 0, cursor, passed => cursor :: passed
  | rounds + 1, cursor, passed =>
    match cursor.eat? test with
    | some after => walk test rounds after (cursor :: passed)
    | none => cursor :: passed

/-- The places passed while eating unit after unit, the furthest first, before `passed`. -/
def trail
    (units : List (List CharTest)) :
    (rounds : Nat) → Cursor → (passed : List Cursor) → List Cursor
  | 0, cursor, passed => cursor :: passed
  | rounds + 1, cursor, passed =>
    match cursor.eatUnit? units with
    | some after => trail units rounds after (cursor :: passed)
    | none => cursor :: passed

/-- Whether a word character stands before the place. -/
def wordBefore (cursor : Cursor) : Bool :=
  cursor.before?.any Text.isWordChar

/-- Whether a word character stands after the place. -/
def wordAhead (cursor : Cursor) : Bool :=
  cursor.ahead.head?.any Text.isWordChar

end Cursor

/-- A condition on a place that consumes nothing. -/
inductive Anchor where
  /-- Nothing comes before. -/
  | textStart
  /-- Nothing comes after. -/
  | textEnd
  /-- Nothing or a line feed comes before. -/
  | lineStart
  /-- Nothing or a line feed comes after. -/
  | lineEnd
  /-- A word character stands on exactly one side. -/
  | wordEdge
deriving DecidableEq, Repr

/-- Whether the condition holds at a place. -/
def Anchor.holds (cursor : Cursor) : Anchor → Bool
  | .textStart => cursor.before?.isNone
  | .textEnd => cursor.ahead.isEmpty
  | .lineStart => cursor.before?.all (· == '\n')
  | .lineEnd => cursor.ahead.head?.all (· == '\n')
  | .wordEdge => cursor.wordBefore != cursor.wordAhead

/-- A text pattern. -/
inductive Pattern where
  /-- Consumes nothing. -/
  | empty
  /-- One character that passes the test, then another pattern. -/
  | next (test : CharTest) (tail : Pattern)
  /-- Consumes nothing, where the condition holds. -/
  | anchor (condition : Anchor)
  /-- Consumes nothing, where the character before does not pass the test. -/
  | notAfter (test : CharTest)
  /-- One pattern, then another. -/
  | seq (first second : Pattern)
  /-- One pattern or, failing that, another. -/
  | alt (preferred other : Pattern)
  /-- Any number of rounds of a pattern, as many as possible first. -/
  | star (body : Pattern)
  /-- Any number of characters that pass the test, as many as possible first. -/
  | many (test : CharTest)
  /-- Any number of characters that pass the test, as few as possible first. -/
  | few (test : CharTest)
  /-- Any number of rounds, each the first of the sequences that fits, as many as possible
  first. -/
  | units (sequences : List (List CharTest))

namespace Pattern

variable {α : Type}

/-- Up to `rounds` rounds of a step, each of which must consume something, as many as possible
first. -/
def iterate
    (step : Cursor → (Cursor → Option α) → Option α) :
    (rounds : Nat) → Cursor → (Cursor → Option α) → Option α
  | 0, cursor, rest => rest cursor
  | rounds + 1, cursor, rest =>
    let again := step cursor fun after =>
      if after.remaining < cursor.remaining then iterate step rounds after rest else none
    match again with
    | some found => some found
    | none => rest cursor

/-- Stops at once if the rest succeeds there, and otherwise moves over one character that passes
the test and tries again. -/
def extend
    (test : CharTest)
    (rest : Cursor → Option α) :
    (rounds : Nat) → Cursor → Option α
  | 0, cursor => rest cursor
  | rounds + 1, cursor =>
    match rest cursor with
    | some found => some found
    | none =>
      match cursor.eat? test with
      | some after => extend test rest rounds after
      | none => none

/-- The first success of the rest of the match among the places where the pattern may end, in
order of preference. -/
def firstMatch :
    Pattern → Cursor → (Cursor → Option α) → Option α
  | .empty, cursor, rest => rest cursor
  | .next test tail, cursor, rest =>
    match cursor.eat? test with
    | some after => firstMatch tail after rest
    | none => none
  | .anchor condition, cursor, rest =>
    if condition.holds cursor then rest cursor else none
  | .notAfter test, cursor, rest =>
    if cursor.before?.any test then none else rest cursor
  | .seq first second, cursor, rest =>
    firstMatch first cursor fun middle => firstMatch second middle rest
  | .alt preferred other, cursor, rest =>
    match firstMatch preferred cursor rest with
    | some found => some found
    | none => firstMatch other cursor rest
  | .star body, cursor, rest =>
    iterate (fun place continuation => firstMatch body place continuation)
      cursor.remaining cursor rest
  | .many test, cursor, rest =>
    (cursor.walk test cursor.remaining []).findSome? rest
  | .few test, cursor, rest =>
    extend test rest cursor.remaining cursor
  | .units sequences, cursor, rest =>
    (cursor.trail sequences cursor.remaining []).findSome? rest

/-- Where the pattern ends, in the preferred way, when it is tried at a place. -/
def end? (pattern : Pattern) (cursor : Cursor) : Option Cursor :=
  pattern.firstMatch cursor some

/-- Whether the pattern fits at the beginning of a text. -/
def fitsAtStart (pattern : Pattern) (text : List Char) : Bool :=
  (pattern.end? (Cursor.start text)).isSome

end Pattern

end SourcePreview
