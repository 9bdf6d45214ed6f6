import SourcePreview.Proofs.Pattern.Places
import Mathlib.Logic.Function.Basic

/-!
# Patterns with groups

A rule can be written as one pattern in which parts are groups.  Groups are numbered from one on in
the order in which they open, a match tells which stretch each group took, and a rule reads its
token off that: the whole match, the stretch of its only group, or the first group that took part,
with the class that is listed for it.  This file writes every rule in that way and shows that it
finds the same tokens at the same places.
-/

namespace SourcePreview

/-- The start and the stop of each group that took part in a match, by the number of the group. -/
abbrev Captures := Nat → Option (Nat × Nat)

namespace Captures

/-- No group took part. -/
def none : Captures := fun _ => .none

/-- One group took a stretch and no other took part. -/
def only (number start stop : Nat) : Captures :=
  fun other => if other = number then some (start, stop) else .none

/-- One more group took a stretch. -/
def set (captures : Captures) (number start stop : Nat) : Captures :=
  Function.update captures number (some (start, stop))

theorem set_none (number start stop : Nat) :
    none.set number start stop = only number start stop := by
  funext other
  simp [set, only, none, Function.update_apply]

end Captures

/-- A pattern in which some parts are groups. -/
inductive GroupPattern where
  /-- A pattern without groups. -/
  | plain (pattern : Pattern)
  /-- A group around a pattern. -/
  | group (body : GroupPattern)
  /-- One pattern, then another. -/
  | seq (first second : GroupPattern)
  /-- One pattern or, failing that, another. -/
  | alt (preferred other : GroupPattern)

/-- A match of a pattern with groups, in UTF-8 byte offsets. -/
structure GroupMatch where
  /-- The offset of the first byte. -/
  start : Nat
  /-- The offset just past the last byte. -/
  stop : Nat
  /-- What the groups took. -/
  captures : Captures

/-- A whole match as a stretch of some class. -/
def GroupMatch.toClaim (found : GroupMatch) (tokenClass : TokenClass) : Claim :=
  ⟨found.start, found.stop, tokenClass⟩

namespace GroupPattern

variable {α : Type}

/-- How many groups there are. -/
def groupCount : GroupPattern → Nat
  | .plain _ => 0
  | .group body => body.groupCount + 1
  | .seq first second => first.groupCount + second.groupCount
  | .alt preferred other => preferred.groupCount + other.groupCount

/-- The first success of the rest of the match among the places where the pattern may end, in
order of preference.  The first group to open gets the number `number`. -/
def firstMatch :
    GroupPattern → (number : Nat) → Cursor → Captures →
      (Cursor → Captures → Option α) → Option α
  | .plain pattern, _, cursor, captures, rest =>
    pattern.firstMatch cursor fun stop => rest stop captures
  | .group body, number, cursor, captures, rest =>
    body.firstMatch (number + 1) cursor captures fun stop captures =>
      rest stop (captures.set number cursor.offset stop.offset)
  | .seq first second, number, cursor, captures, rest =>
    first.firstMatch number cursor captures fun middle captures =>
      second.firstMatch (number + first.groupCount) middle captures rest
  | .alt preferred other, number, cursor, captures, rest =>
    match preferred.firstMatch number cursor captures rest with
    | some found => some found
    | none => other.firstMatch (number + preferred.groupCount) cursor captures rest

/-- The match at a place and where it ended. -/
def match? (pattern : GroupPattern) (cursor : Cursor) : Option (GroupMatch × Cursor) :=
  pattern.firstMatch 1 cursor .none fun stop captures =>
    some (⟨cursor.offset, stop.offset, captures⟩, stop)

/-- The matches in a text, from left to right. -/
def matchesIn (pattern : GroupPattern) (text : List Char) : List GroupMatch :=
  scan pattern.match? text

/-- The patterns one after the other as alternatives, each of them a group. -/
def alternation : List Pattern → GroupPattern
  | [] => .plain .never
  | [last] => .group (.plain last)
  | first :: others => .alt (.group (.plain first)) (alternation others)

end GroupPattern

namespace Rule

/-- The pattern of a rule, with groups around what may be the token. -/
def groupPattern : Rule → GroupPattern
  | .whole pattern _ => .plain pattern
  | .inner lead target follow _ =>
    .seq (.plain lead) (.seq (.group (.plain target)) (.plain follow))
  | .firstOf parts => .alternation (parts.map (·.1))

/-- The first group of a match that took part, with the class listed for it; the classes are those
of the groups from `number` on. -/
def firstGroup? (captures : Captures) : (number : Nat) → List TokenClass → Option Claim
  | _, [] => none
  | number, tokenClass :: classes =>
    match captures number with
    | some (start, stop) => some ⟨start, stop, tokenClass⟩
    | none => firstGroup? captures (number + 1) classes

/-- The stretch that a rule asks for when its pattern has matched. -/
def claim? (found : GroupMatch) : Rule → Option Claim
  | .whole _ tokenClass => some (found.toClaim tokenClass)
  | .inner _ _ _ tokenClass => firstGroup? found.captures 1 [tokenClass]
  | .firstOf parts => firstGroup? found.captures 1 (parts.map (·.2))

end Rule

namespace Pattern

variable {α β : Type}

theorem iterate_map
    {step : Cursor → (Cursor → Option α) → Option α}
    {stepMapped : Cursor → (Cursor → Option β) → Option β} {change : α → β}
    (commutes : ∀ cursor rest,
      stepMapped cursor (fun place => (rest place).map change) =
        (step cursor rest).map change)
    (rounds : Nat) (cursor : Cursor) (rest : Cursor → Option α) :
    iterate stepMapped rounds cursor (fun place => (rest place).map change) =
      (iterate step rounds cursor rest).map change := by
  induction rounds generalizing cursor with
  | zero => rfl
  | succ rounds ih =>
      have again :
          (stepMapped cursor fun after =>
            if after.remaining < cursor.remaining then
              iterate stepMapped rounds after fun place => (rest place).map change
            else none) =
          (step cursor fun after =>
            if after.remaining < cursor.remaining then iterate step rounds after rest
            else none).map change := by
        rw [← commutes]
        congr 1
        funext after
        split
        · exact ih after
        · rfl
      simp only [iterate, again]
      cases step cursor _ <;> rfl

theorem extend_map
    (test : CharTest) (change : α → β) (rest : Cursor → Option α)
    (rounds : Nat) (cursor : Cursor) :
    extend test (fun place => (rest place).map change) rounds cursor =
      (extend test rest rounds cursor).map change := by
  induction rounds generalizing cursor with
  | zero => rfl
  | succ rounds ih =>
      rw [extend, extend]
      cases rest cursor with
      | some found => rfl
      | none =>
          simp only [Option.map_none]
          cases cursor.eat? test with
          | some after => exact ih after
          | none => rfl

/-- Changing what the rest of the match gives changes what the match gives. -/
theorem firstMatch_map
    (pattern : Pattern) (change : α → β) (cursor : Cursor) (rest : Cursor → Option α) :
    pattern.firstMatch cursor (fun place => (rest place).map change) =
      (pattern.firstMatch cursor rest).map change := by
  induction pattern generalizing cursor rest with
  | empty => rfl
  | next test tail ih =>
      rw [firstMatch, firstMatch]
      cases cursor.eat? test with
      | some after => exact ih after rest
      | none => rfl
  | anchor condition =>
      rw [firstMatch, firstMatch]
      split <;> rfl
  | notAfter test =>
      rw [firstMatch, firstMatch]
      split <;> rfl
  | seq first second firstIH secondIH =>
      simp only [firstMatch, secondIH, firstIH]
  | alt preferred other preferredIH otherIH =>
      rw [firstMatch, firstMatch, preferredIH, otherIH]
      cases preferred.firstMatch cursor rest <;> rfl
  | star body ih =>
      exact iterate_map ih cursor.remaining cursor rest
  | many test =>
      rw [firstMatch, firstMatch, List.map_findSome?]
      rfl
  | few test => exact extend_map test change rest cursor.remaining cursor
  | units sequences =>
      rw [firstMatch, firstMatch, List.map_findSome?]
      rfl

/-- What is made of the end of a match is made of the preferred end. -/
theorem firstMatch_some
    (pattern : Pattern) (cursor : Cursor) (make : Cursor → α) :
    pattern.firstMatch cursor (fun stop => some (make stop)) =
      (pattern.end? cursor).map make :=
  pattern.firstMatch_map make cursor some

end Pattern

namespace GroupPattern

variable {α : Type}

/-- Of several alternatives the first one that leads to a match takes part, and no other. -/
theorem firstMatch_alternation
    (patterns : List Pattern) (number : Nat) (cursor : Cursor) (captures : Captures)
    (rest : Cursor → Captures → Option α) :
    (alternation patterns).firstMatch number cursor captures rest =
      (patterns.zipIdx number).findSome? fun (pattern, ordinal) =>
        pattern.firstMatch cursor fun stop =>
          rest stop (captures.set ordinal cursor.offset stop.offset) := by
  induction patterns generalizing number with
  | nil =>
      have refused : cursor.eat? (fun _ => false) = none := by
        unfold Cursor.eat?
        cases cursor.ahead <;> rfl
      simp [alternation, firstMatch, Pattern.never, Pattern.char, Pattern.firstMatch, refused]
  | cons first others ih =>
      cases others with
      | nil =>
          simp only [alternation, firstMatch, List.zipIdx_cons, List.zipIdx_nil,
            List.findSome?_cons, List.findSome?_nil]
          split <;> simp_all
      | cons second others =>
          simp only [alternation, firstMatch, groupCount, ih, Nat.zero_add]
          rw [List.zipIdx_cons, List.findSome?_cons]
          rfl

/-- The match of one alternative, which is the group with some number. -/
def alternative? (cursor : Cursor) (numbered : Pattern × Nat) :
    Option (GroupMatch × Cursor) :=
  (numbered.1.end? cursor).map fun stop =>
    (⟨cursor.offset, stop.offset, .only numbered.2 cursor.offset stop.offset⟩, stop)

/-- The match of an alternation is that of the first alternative that fits. -/
theorem match?_alternation (patterns : List Pattern) (cursor : Cursor) :
    (alternation patterns).match? cursor =
      (patterns.zipIdx 1).findSome? (alternative? cursor) := by
  rw [match?, firstMatch_alternation]
  refine congrArg (List.findSome? · _) (funext fun numbered => ?_)
  simp only [alternative?, Captures.set_none, Pattern.firstMatch_some]

/-- In a match of an alternation the group of one alternative took the whole match, and no other
group took part. -/
theorem exists_of_match?_alternation
    {patterns : List Pattern} {cursor after : Cursor} {found : GroupMatch}
    (matched : (alternation patterns).match? cursor = some (found, after)) :
    ∃ index pattern,
      patterns[index]? = some pattern ∧ pattern.end? cursor = some after ∧
        found =
          ⟨cursor.offset, after.offset, .only (index + 1) cursor.offset after.offset⟩ := by
  rw [match?_alternation] at matched
  obtain ⟨⟨pattern, ordinal⟩, member, fits⟩ := List.exists_of_findSome?_eq_some matched
  obtain ⟨positive, listed⟩ := List.mk_mem_zipIdx_iff_le_and_getElem?_sub.mp member
  obtain ⟨stop, ends, same⟩ := Option.map_eq_some_iff.mp fits
  cases same
  exact ⟨ordinal - 1, pattern, listed, ends, by rw [Nat.sub_add_cancel positive]⟩

end GroupPattern

namespace Rule

/-- Only the group of a listed class took part: its stretch gets that class. -/
theorem firstGroup?_only
    {classes : List TokenClass} {index : Nat} {tokenClass : TokenClass}
    (listed : classes[index]? = some tokenClass) (number start stop : Nat) :
    firstGroup? (.only (number + index) start stop) number classes =
      some ⟨start, stop, tokenClass⟩ := by
  induction classes generalizing number index with
  | nil => simp at listed
  | cons first classes ih =>
      cases index with
      | zero => simp_all [firstGroup?, Captures.only]
      | succ index =>
          have later := ih (by simpa using listed) (number + 1)
          rw [Nat.add_assoc, Nat.add_comm 1] at later
          simpa [firstGroup?, Captures.only] using later

/-- What one of the alternatives of a rule finds at a place. -/
def alternative? (cursor : Cursor) (part : Pattern × TokenClass) : Option (Claim × Cursor) :=
  (part.1.end? cursor).map fun stop => (⟨cursor.offset, stop.offset, part.2⟩, stop)

theorem find_firstOf (parts : List (Pattern × TokenClass)) (cursor : Cursor) :
    (Rule.firstOf parts).find cursor = parts.findSome? (alternative? cursor) := by
  rw [find]
  refine congrArg (List.findSome? · _) (funext fun part => ?_)
  simp only [alternative?, Pattern.firstMatch_some]

/-- The first alternative that fits gives its group the class listed for it; `done` are the parts
before those that are `left`. -/
theorem findSome?_alternative?
    (done left : List (Pattern × TokenClass)) (cursor : Cursor) :
    (((left.map (·.1)).zipIdx (1 + done.length)).findSome?
        (GroupPattern.alternative? cursor)).bind (fun (found, after) =>
          (firstGroup? found.captures 1 ((done ++ left).map (·.2))).map fun claim =>
            (claim, after)) =
      left.findSome? (alternative? cursor) := by
  induction left generalizing done with
  | nil => rfl
  | cons part left ih =>
      rw [List.map_cons, List.zipIdx_cons, List.findSome?_cons, List.findSome?_cons]
      cases fits : part.1.end? cursor with
      | some stop =>
          have listed :
              ((done ++ part :: left).map (·.2))[done.length]? = some part.2 := by
            simp
          simp only [GroupPattern.alternative?, alternative?, fits, Option.map_some,
            Option.bind_some, firstGroup?_only listed]
      | none =>
          have rest := ih (done ++ [part])
          rw [List.length_append, List.length_singleton, ← Nat.add_assoc,
            List.append_assoc, List.singleton_append] at rest
          simpa only [GroupPattern.alternative?, alternative?, fits, Option.map_none]
            using rest

/-- A rule finds the token that it reads off the match of its pattern with groups. -/
theorem find_eq_claim? (rule : Rule) (cursor : Cursor) :
    rule.find cursor =
      (rule.groupPattern.match? cursor).bind fun (found, after) =>
        (rule.claim? found).map fun claim => (claim, after) := by
  cases rule with
  | whole pattern tokenClass =>
      simp only [find, groupPattern, GroupPattern.match?, GroupPattern.firstMatch,
        Pattern.firstMatch_some, Option.bind_map]
      cases pattern.end? cursor <;> rfl
  | inner lead target follow tokenClass =>
      -- The token of a match is read off its only group, which always takes part.
      let token (result : GroupMatch × Cursor) : Claim × Cursor :=
        (((firstGroup? result.1.captures 1 [tokenClass]).getD default), result.2)
      have found :
          (inner lead target follow tokenClass).find cursor =
            ((inner lead target follow tokenClass).groupPattern.match? cursor).map
              token := by
        simp only [GroupPattern.match?, groupPattern, GroupPattern.firstMatch,
          ← Pattern.firstMatch_map]
        rfl
      rw [found]
      cases matched : (inner lead target follow tokenClass).groupPattern.match? cursor with
      | none => rfl
      | some result =>
          obtain ⟨start, matched⟩ := lead.exists_of_firstMatch matched
          obtain ⟨stop, matched⟩ := target.exists_of_firstMatch matched
          obtain ⟨resume, same⟩ := follow.exists_of_firstMatch matched
          cases same
          rfl
  | firstOf parts =>
      rw [find_firstOf, groupPattern, GroupPattern.match?_alternation]
      exact (findSome?_alternative? [] parts cursor).symm

/-- In a match of a rule with several alternatives, the group of one of them took the whole match,
which is the token. -/
theorem exists_part_of_match?
    {parts : List (Pattern × TokenClass)} {cursor after : Cursor} {found : GroupMatch}
    (matched : (firstOf parts).groupPattern.match? cursor = some (found, after)) :
    ∃ index pattern tokenClass,
      parts[index]? = some (pattern, tokenClass) ∧
        pattern.end? cursor = some after ∧
        found =
          ⟨cursor.offset, after.offset, .only (index + 1) cursor.offset after.offset⟩ ∧
        (firstOf parts).claim? found = some (found.toClaim tokenClass) := by
  obtain ⟨index, pattern, listed, ends, rfl⟩ :=
    GroupPattern.exists_of_match?_alternation matched
  rw [List.getElem?_map, Option.map_eq_some_iff] at listed
  obtain ⟨⟨_, tokenClass⟩, isPart, rfl⟩ := listed
  have classListed : (parts.map (·.2))[index]? = some tokenClass := by
    simp [isPart]
  refine ⟨index, _, tokenClass, isPart, ends, rfl, ?_⟩
  rw [claim?, Nat.add_comm index 1, firstGroup?_only classListed]
  rfl

/-- Every match of the pattern of a rule has a token. -/
theorem exists_claim?_of_match?
    {rule : Rule} {cursor after : Cursor} {found : GroupMatch}
    (matched : rule.groupPattern.match? cursor = some (found, after)) :
    ∃ claim, rule.claim? found = some claim := by
  cases rule with
  | whole pattern tokenClass => exact ⟨_, rfl⟩
  | inner lead target follow tokenClass =>
      obtain ⟨start, matched⟩ := lead.exists_of_firstMatch matched
      obtain ⟨stop, matched⟩ := target.exists_of_firstMatch matched
      obtain ⟨resume, same⟩ := follow.exists_of_firstMatch matched
      cases same
      exact ⟨_, rfl⟩
  | firstOf parts =>
      obtain ⟨_, _, _, _, _, _, token⟩ := exists_part_of_match? matched
      exact ⟨_, token⟩

/-- The matches of the pattern of a rule are found at places of the text. -/
theorem exists_match?_of_mem_matchesIn
    {rule : Rule} {text : List Char} {found : GroupMatch}
    (member : found ∈ rule.groupPattern.matchesIn text) :
    ∃ place after,
      place.IsIn text ∧ rule.groupPattern.match? place = some (found, after) := by
  refine exists_of_mem_scanFrom (Cursor.keptBy_isIn text _) ?_ (Cursor.isIn_start text) member
  intro cursor found after inText matched
  obtain ⟨claim, isRead⟩ := exists_claim?_of_match? matched
  have finds : rule.find cursor = some (claim, after) := by
    simp only [find_eq_claim?, matched, Option.bind_some, isRead, Option.map_some]
  exact (find_isIn inText finds).2

end Rule

/-- Reading something off everything that a scan finds is scanning for what is read off. -/
theorem scanFrom_filterMap
    {α β : Type} {find : Cursor → Option (α × Cursor)}
    {look : Cursor → Option (β × Cursor)} {read : β → Option α}
    (reads : ∀ cursor,
      find cursor = (look cursor).bind fun (found, after) =>
        (read found).map fun value => (value, after))
    (readable : ∀ cursor found after,
      look cursor = some (found, after) → ∃ value, read found = some value)
    (tries : Nat) (cursor : Cursor) :
    scanFrom find tries cursor = (scanFrom look tries cursor).filterMap read := by
  induction tries generalizing cursor with
  | zero => rfl
  | succ tries ih =>
      rw [scanFrom, scanFrom, reads]
      cases looked : look cursor with
      | none =>
          simp only [Option.bind_none, Option.filter_none]
          cases cursor.next? with
          | none => rfl
          | some after => exact ih after
      | some result =>
          obtain ⟨found, after⟩ := result
          obtain ⟨value, isRead⟩ := readable cursor found after looked
          by_cases further : after.remaining < cursor.remaining
          · simp [isRead, Option.filter_some, further, ih]
          · simp only [isRead, Option.bind_some, Option.map_some, Option.filter_some, further,
              decide_false, Bool.false_eq_true, if_false]
            cases cursor.next? with
            | none => rfl
            | some after => exact ih after

/-- A rule asks for the tokens that it reads off the matches of its pattern in the text. -/
theorem Rule.claims_eq_filterMap (rule : Rule) (text : List Char) :
    rule.claims text = (rule.groupPattern.matchesIn text).filterMap rule.claim? :=
  @scanFrom_filterMap _ _ (fun cursor => rule.find cursor) rule.groupPattern.match?
    (fun found => rule.claim? found) rule.find_eq_claim?
    (fun _ _ _ => exists_claim?_of_match?) _ _

end SourcePreview
