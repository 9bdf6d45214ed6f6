import SourcePreview.Proofs.Text.Digits
import SourcePreview.Proofs.Yaml.Nodes
import SourcePreview.Yaml.Fields
import Mathlib.Data.List.Nodup

/-!
# Reading the fields of printed records back

A number is printed in decimal digits without a zero in front, so it is read back in base ten.  A
text that would be read as something else is quoted, so it is read back as a text even where
nothing may stand in its place.
-/

namespace SourcePreview.Yaml

namespace Value

theorem isWord_toDigits (number : Nat) : IsWord (Nat.toDigits 10 number) := by
  have large : 1 < 10 := by decide
  have digits : ∀ digit < 10, isWordChar digit.digitChar = true := by decide
  refine ⟨?_, Text.forall_mem_toDigits (isWordChar · = true) large digits number⟩
  rw [Nat.toDigits_eq_if large]
  split <;> simp

theorem isWord_toString (number : Nat) : IsWord (toString number).toList := by
  rw [Nat.toString_eq_ofList_toDigits, String.toList_ofList]
  exact isWord_toDigits number

end Value

namespace Document

/-! ## Numbers -/

/-- A zero comes first in the digits of zero only. -/
theorem head?_toDigits {number : Nat} (positive : 0 < number) :
    (Nat.toDigits 10 number).head? ≠ some '0' := by
  induction number using Nat.strongRecOn with
  | ind number ih =>
      rw [Nat.toDigits_eq_if (by decide)]
      split
      · next small =>
          have noZero : ∀ digit < 10, 0 < digit → digit.digitChar ≠ '0' := by decide
          simpa using noZero number small positive
      · next large =>
          have someDigits := (Value.isWord_toDigits (number / 10)).notEmpty
          rw [List.head?_append_of_ne_nil _ someDigits]
          exact ih (number / 10) (by omega) (by omega)

/-- The digits of a number are read back in base ten. -/
theorem numberIn?_toDigits (number : Nat) :
    numberIn? 10 (Nat.toDigits 10 number) = some number := by
  have large : 1 < 10 := by decide
  have values : ∀ digit < 10, digitValue? 10 digit.digitChar = some digit := by decide
  have someDigits := List.isEmpty_eq_false_iff.mpr (Value.isWord_toDigits number).notEmpty
  have reads :=
    Text.foldlM_toDigits id
      (fun number digit => (digitValue? 10 digit).map fun value => number * 10 + value)
      (fun number digit small => by rw [id, values digit small]; rfl) large number
  rw [List.map_id] at reads
  rw [numberIn?, someDigits]
  exact reads

/-- The digits of a number are read back as that number. -/
theorem naturalOf?_toDigits (number : Nat) :
    naturalOf? (Nat.toDigits 10 number) = some number := by
  cases number with
  | zero => rfl
  | succ number =>
      have isWord := Value.isWord_toDigits (number + 1)
      have noZero := head?_toDigits (Nat.succ_pos number)
      have reads := numberIn?_toDigits (number + 1)
      obtain ⟨first, more, isDigits⟩ := List.exists_cons_of_ne_nil isWord.notEmpty
      rw [isDigits] at isWord noZero reads ⊢
      have noSign : first ≠ '+' :=
        Value.ne_of_isWordChar (isWord.isWordChar first List.mem_cons_self) rfl
      have noZero : first ≠ '0' := fun isZero => noZero (congrArg some isZero)
      rw [← reads]
      simp [naturalOf?, noSign, noZero]

/-! ## Fields -/

section

variable (document : Document)

theorem nat?_word {bound number : Nat} (small : number < bound) :
    document.nat? bound (Value.word (toString number)).node = some number := by
  rw [Value.node]
  simp [nat?, scalar?, resolve, isTyped, naturalOf?_toDigits, small]

theorem bool?_word (value : Bool) :
    document.bool? (Value.word (if value then "true" else "false")).node = some value := by
  cases value <;> rw [Value.node] <;> rfl

theorem text?_text (text : String) : document.text? (Value.text text).node = some text := by
  rw [Value.node]
  rfl

/-- A text that is written without quotes does not stand for nothing. -/
theorem not_isNull_of_plain {text : String} (plain : Value.styleOf text = .plain) :
    (text.isEmpty || isNull text) = false := by
  revert plain
  fun_cases Value.styleOf text
  case case3 _ _ allowed =>
    intro _
    rw [Bool.and_eq_true, Bool.not_eq_true'] at allowed
    have notAmbiguous := allowed.1
    simp only [isAmbiguous, Bool.or_eq_false_iff] at notAmbiguous
    obtain ⟨⟨⟨⟨⟨notEmpty, notNull⟩, _⟩, _⟩, _⟩, _⟩ := notAmbiguous
    rw [notNull, Bool.or_false, ← notEmpty, Bool.eq_iff_iff, String.isEmpty_iff,
      List.isEmpty_iff, String.toList_eq_nil_iff]
  all_goals
    intro plain
    cases plain

/-- A text is read back where nothing may stand in its place. -/
theorem optional?_text (text : String) :
    optional? text? document (Value.text text).node = some (some text) := by
  have isText := document.text?_text text
  rw [Value.node] at isText ⊢
  simp only [optional?, resolve, Option.bind_eq_bind, Option.bind_some, isText, Option.map_some]
  split
  · rfl
  · next plain => rw [if_neg (by rw [not_isNull_of_plain (not_not.mp plain)]; simp)]

/-- The fields of a record are read back with their names. -/
theorem members?_memberNodes (members : List (String × Value)) :
    document.members? (.mapping (Value.memberNodes members)) =
      some (members.map fun (name, value) => (name, value.node)) := by
  change (Value.memberNodes members).mapM _ = _
  induction members with
  | nil => rw [Value.memberNodes]; rfl
  | cons member members ih =>
      obtain ⟨name, value⟩ := member
      rw [Value.memberNodes, List.mapM_cons, ih]
      rfl

theorem filter_name_eq_nil
    {members : List (String × Node)} {name : String}
    (missing : name ∉ members.map Prod.fst) :
    members.filter (fun member => member.1 == name) = [] := by
  rw [List.filter_eq_nil_iff]
  intro other inside isNamed
  exact missing (List.mem_map.mpr ⟨other, inside, eq_of_beq isNamed⟩)

/-- A field that is there once is found. -/
theorem field?_of_mem
    {members : List (String × Node)} {name : String} {node : Node}
    (distinct : (members.map Prod.fst).Nodup) (member : (name, node) ∈ members) :
    field? members name = some (some node) := by
  obtain ⟨before, after, rfl⟩ := List.append_of_mem member
  rw [List.map_append, List.map_cons, List.nodup_middle, List.nodup_cons, List.mem_append,
    not_or] at distinct
  obtain ⟨⟨notBefore, notAfter⟩, -⟩ := distinct
  rw [field?, List.filter_append, filter_name_eq_nil notBefore,
    List.filter_cons_of_pos (by simp), filter_name_eq_nil notAfter,
    List.nil_append]

/-- A field that is not there is missing. -/
theorem field?_of_not_mem
    {members : List (String × Node)} {name : String}
    (missing : name ∉ members.map Prod.fst) :
    field? members name = some none := by
  rw [field?, filter_name_eq_nil missing]

theorem map_fst_nodes (members : List (String × Value)) :
    (members.map fun (name, value) => (name, Value.node value)).map Prod.fst =
      members.map Prod.fst := by
  rw [List.map_map]
  rfl

section

variable
    {α : Type} {members : List (String × Value)} {name : String}
    (fallback : α) (read : Document → Node → Option α)

/-- A field of a printed record is read from its value. -/
theorem orDefault?_of_mem
    {value : Value} (distinct : (members.map Prod.fst).Nodup) (member : (name, value) ∈ members) :
    orDefault? fallback document (members.map fun (name, value) => (name, value.node)) name read =
      read document value.node := by
  rw [orDefault?,
    field?_of_mem (map_fst_nodes members ▸ distinct) (List.mem_map.mpr ⟨_, member, rfl⟩)]
  rfl

/-- A field that is not printed has its default. -/
theorem orDefault?_of_not_mem (missing : name ∉ members.map Prod.fst) :
    orDefault? fallback document (members.map fun (name, value) => (name, value.node)) name read =
      some fallback := by
  rw [orDefault?, field?_of_not_mem (map_fst_nodes members ▸ missing)]
  rfl

end

end

end Document

end SourcePreview.Yaml
