import SourcePreview.Proofs.Text.Digits
import SourcePreview.Proofs.Yaml.Plain
import SourcePreview.Yaml.Printer
import SourcePreview.Yaml.Scan
import Mathlib.Data.List.Basic

/-!
# The characters of printed YAML documents

Whatever the texts in a record are, all characters of the document that is printed for it may occur
in documents, since those that may not are written as escapes.
-/

namespace SourcePreview.Yaml

theorem isAllowed_of_isPrintable
    {character : Char} (isPrintable : Value.isPrintable character = true) :
    isAllowed character = true := by
  simp only [Value.isPrintable, isAllowed, Bool.or_eq_true, Bool.and_eq_true, decide_eq_true_eq,
    beq_iff_eq] at isPrintable ⊢
  omega

namespace Value

mutual

/-- Whether a value is cut into its own tokens again: names and words are words, and no record is
empty. -/
def IsWritable : Value → Prop
  | .word spelling => IsWord spelling.toList
  | .text _ => True
  | .record members => members ≠ [] ∧ AreWritable members

/-- Whether the fields of a record are cut into their own tokens again. -/
def AreWritable : List (String × Value) → Prop
  | [] => True
  | (name, value) :: members =>
    IsWord name.toList ∧ name.toList.length ≤ Scanner.longestKey ∧ IsWritable value ∧
      AreWritable members

end

theorem isWritable_text (text : String) : (Value.text text).IsWritable := by
  rw [IsWritable]
  trivial

theorem areWritable_of_forall
    {members : List (String × Value)}
    (writable : ∀ name value, (name, value) ∈ members →
      IsWord name.toList ∧ name.toList.length ≤ Scanner.longestKey ∧ value.IsWritable) :
    AreWritable members := by
  induction members with
  | nil =>
      rw [AreWritable]
      trivial
  | cons member members ih =>
      obtain ⟨name, value⟩ := member
      obtain ⟨isWord, short, isWritable⟩ := writable name value List.mem_cons_self
      rw [AreWritable]
      exact
        ⟨isWord, short, isWritable,
          ih fun name value inside => writable name value (List.mem_cons_of_mem _ inside)⟩

section

variable {text rest : List Char} {character : Char}

theorem arePrintable_spaces (count : Nat) : ArePrintable (spaces count) := by
  intro character member
  rw [List.eq_of_mem_replicate member]
  rfl

/-! ## Texts -/

theorem arePrintable_singleQuotedFrom
    (printable : ArePrintable text) (indentation : Nat) (broken : Bool) :
    ArePrintable (singleQuotedFrom indentation broken text) := by
  have indented (broken : Bool) : ArePrintable (if broken then spaces indentation else []) := by
    cases broken
    · exact .nil
    · exact arePrintable_spaces indentation
  induction text generalizing broken with
  | nil => exact indented broken
  | cons first text ih =>
      rw [ArePrintable.cons_iff] at printable
      rw [singleQuotedFrom]
      split
      · exact .cons printable.1 (ih printable.2 true)
      · refine ((indented broken).append ?_).append (ih printable.2 false)
        split
        · exact .cons rfl (.cons rfl .nil)
        · exact .cons printable.1 .nil

theorem arePrintable_blockLinesFrom
    (printable : ArePrintable text) (indentation : Nat) (broken : Bool) :
    ArePrintable (blockLinesFrom indentation broken text) := by
  induction text generalizing broken with
  | nil =>
      cases broken
      · exact .cons rfl .nil
      · exact .nil
  | cons first text ih =>
      rw [ArePrintable.cons_iff] at printable
      rw [blockLinesFrom]
      split
      · exact .cons printable.1 (ih printable.2 true)
      · have more := ArePrintable.cons printable.1 (ih printable.2 false)
        cases broken
        · exact more
        · exact (arePrintable_spaces indentation).append more

theorem arePrintable_chompingSign (text : List Char) : ArePrintable (chompingSign text) := by
  fun_cases chompingSign text
  all_goals simp [ArePrintable, isPrintable]

theorem arePrintable_literalBlock (printable : ArePrintable text) (indentation : Nat) :
    ArePrintable (literalBlock indentation text) := by
  have lines := arePrintable_blockLinesFrom printable indentation true
  refine ArePrintable.append (.append (.cons rfl ?_) ?_) (.cons rfl lines)
  · split
    · exact .nil
    · exact .cons rfl .nil
  · exact arePrintable_chompingSign text

theorem arePrintable_hexPadded (count number : Nat) : ArePrintable (hexPadded count number) := by
  refine ArePrintable.append (fun character member => ?_) fun character member => ?_
  · rw [List.eq_of_mem_replicate member]
    rfl
  · obtain ⟨digit, isDigit, rfl⟩ := List.mem_map.mp member
    have printable : ∀ digit < 16, isPrintable digit.digitChar.toUpper = true := by decide
    have large : 1 < 16 := by decide
    exact
      Text.forall_mem_toDigits (fun digit => isPrintable digit.toUpper = true) large printable
        number digit isDigit

theorem arePrintable_escapeChar (character : Char) : ArePrintable (escapeChar character) := by
  fun_cases escapeChar character
  case case15 printable => exact .cons printable .nil
  case case16 => exact .cons rfl (.cons rfl (arePrintable_hexPadded _ _))
  case case17 => exact .cons rfl (.cons rfl (arePrintable_hexPadded _ _))
  all_goals exact .cons rfl (.cons rfl .nil)

theorem arePrintable_doubleQuoted (text : List Char) : ArePrintable (doubleQuoted text) := by
  have escaped : ArePrintable (text.flatMap escapeChar) := by
    intro character member
    obtain ⟨source, _, isWritten⟩ := List.mem_flatMap.mp member
    exact arePrintable_escapeChar source character isWritten
  exact .append (.cons rfl escaped) (.cons rfl .nil)

/-- A text that cannot be printed as it is is written with escapes. -/
theorem arePrintable_printText (indentation : Nat) (text : String) :
    ArePrintable (printText indentation text) := by
  have lineFeed : ArePrintable ['\n'] := .cons rfl .nil
  rw [printText]
  fun_cases styleOf text
  case case1 characters _ allowed =>
    rw [allowsBlock, Bool.and_eq_true, Bool.not_eq_true'] at allowed
    exact arePrintable_literalBlock (arePrintable_of_not_needsEscapes allowed.1) indentation
  case case3 characters _ allowed =>
    have plain := (Bool.and_eq_true _ _ ▸ allowed).2
    exact ArePrintable.append (isPlain_of_allowsPlain plain).printable lineFeed
  case case4 characters _ _ allowed =>
    rw [allowsSingleQuotes, Bool.and_eq_true, Bool.not_eq_true'] at allowed
    have inside :=
      arePrintable_singleQuotedFrom (arePrintable_of_not_needsEscapes allowed.1) indentation false
    exact .append (.append (.cons rfl inside) (.cons rfl .nil)) lineFeed
  all_goals exact (arePrintable_doubleQuoted text.toList).append lineFeed

end

/-! ## Records -/

theorem IsWord.arePrintable {word : List Char} (isWord : IsWord word) : ArePrintable word :=
  fun character member => isPrintable_of_isWordChar (isWord.isWordChar character member)

mutual

theorem arePrintable_print (value : Value) (writable : value.IsWritable) (level : Nat) :
    ArePrintable (print level value) := by
  match value with
  | .word spelling =>
      rw [IsWritable] at writable
      rw [print]
      exact .append (.cons rfl writable.arePrintable) (.cons rfl .nil)
  | .text value =>
      rw [print]
      exact .cons rfl (arePrintable_printText (level + 2) value)
  | .record members =>
      rw [IsWritable] at writable
      rw [print]
      exact .cons rfl (arePrintable_printMembers members writable.2 (level + 2))

theorem arePrintable_printMembers
    (members : List (String × Value)) (writable : AreWritable members) (level : Nat) :
    ArePrintable (printMembers level members) := by
  match members with
  | [] =>
      rw [printMembers]
      exact .nil
  | (name, value) :: members =>
      rw [AreWritable] at writable
      obtain ⟨isWord, _, writableValue, writableRest⟩ := writable
      have named := (arePrintable_spaces level).append isWord.arePrintable
      rw [printMembers]
      exact
        .append (named.append (.cons rfl (arePrintable_print value writableValue level)))
          (arePrintable_printMembers members writableRest level)

end

end Value

end SourcePreview.Yaml
