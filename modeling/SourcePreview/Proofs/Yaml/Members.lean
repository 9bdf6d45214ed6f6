import SourcePreview.Yaml.Fields

/-!
# Members of records

A field of a record is the value under its name.  Where a record is read, a field that must be there
is read from that value, and a field that may be missing is read from it or has its default; a value
that says that there is nothing counts as none.
-/

namespace SourcePreview.Yaml.Document

/-- The value that a record has under a name. -/
def memberNode? (document : Document) (node : Node) (name : String) : Option Node :=
  (document.members? node).bind (·.lookup name)

/-- Whether a record has a text under a name. -/
def HasText (document : Document) (node : Node) (name text : String) : Prop :=
  ∃ value, document.memberNode? node name = some value ∧ document.text? value = some text

/-- Whether a record has a truth value under a name, false being left out. -/
def HasFlag (document : Document) (node : Node) (name : String) (flag : Bool) : Prop :=
  match document.memberNode? node name with
  | some value => document.bool? value = some flag
  | none => flag = false

/-- Whether a node is a scalar without quotes that says that there is nothing. -/
def IsNothing (document : Document) (node : Node) : Prop :=
  ∃ scalar, document.resolve node = some (.scalar scalar) ∧
    scalar.style = .plain ∧ (scalar.text.isEmpty = true ∨ isNull scalar.text = true)

/-- A field that is there once is found by its name. -/
theorem lookup_eq_of_field?
    {members : List (String × Node)} {name : String} {found : Option Node}
    (isField : field? members name = some found) :
    members.lookup name = found := by
  induction members with
  | nil =>
      cases isField
      rfl
  | cons member members ih =>
      obtain ⟨key, value⟩ := member
      by_cases same : key = name
      · subst same
        rw [field?, List.filter_cons, if_pos (beq_self_eq_true key)] at isField
        rw [List.lookup_cons_self]
        split at isField
        · next none => exact absurd none (List.cons_ne_nil _ _)
        · next single =>
            cases (List.cons.inj single).1
            exact Option.some.inj isField
        · cases isField
      · rw [field?, List.filter_cons, if_neg (by simpa using same)] at isField
        rw [List.lookup_cons, beq_false_of_ne (Ne.symm same)]
        exact ih isField

section Fields

variable {α : Type} {document : Document} {node : Node} {members : List (String × Node)}
  {name : String} {read : Document → Node → Option α} {value : α}

theorem exists_memberNode?_of_required?
    (isMembers : document.members? node = some members)
    (reads : required? document members name read = some value) :
    ∃ found, document.memberNode? node name = some found ∧ read document found = some value := by
  simp only [required?, Option.bind_eq_bind, Option.bind_eq_some_iff] at reads
  obtain ⟨_, isField, found, rfl, reads⟩ := reads
  refine ⟨found, ?_, reads⟩
  rw [memberNode?, isMembers, Option.bind_some, lookup_eq_of_field? isField]

theorem memberNode?_cases_of_orDefault?
    {fallback : α} (isMembers : document.members? node = some members)
    (reads : orDefault? fallback document members name read = some value) :
    (∃ found, document.memberNode? node name = some found ∧ read document found = some value) ∨
      document.memberNode? node name = none ∧ value = fallback := by
  rw [memberNode?, isMembers, Option.bind_some]
  simp only [orDefault?, Option.bind_eq_bind, Option.bind_eq_some_iff] at reads
  obtain ⟨found, isField, reads⟩ := reads
  rw [lookup_eq_of_field? isField]
  cases found with
  | none => exact .inr ⟨rfl, (Option.some.inj reads).symm⟩
  | some found => exact .inl ⟨found, rfl, reads⟩

theorem hasFlag_of_orDefault?
    {flag : Bool} (isMembers : document.members? node = some members)
    (reads : orDefault? false document members name bool? = some flag) :
    document.HasFlag node name flag := by
  rw [HasFlag]
  rcases memberNode?_cases_of_orDefault? isMembers reads with
    ⟨found, isFound, reads⟩ | ⟨missing, rfl⟩
  · rw [isFound]
    exact reads
  · rw [missing]

/-- A node that may stand for nothing is either read or does so. -/
theorem optional?_cases {found : Option α} (reads : optional? read document node = some found) :
    (∃ value, read document node = some value ∧ found = some value) ∨
      document.IsNothing node ∧ found = none := by
  have isRead (reads : (read document node).map some = some found) :
      ∃ value, read document node = some value ∧ found = some value := by
    obtain ⟨value, isValue, rfl⟩ := Option.map_eq_some_iff.mp reads
    exact ⟨value, isValue, rfl⟩
  simp only [optional?, Option.bind_eq_bind, Option.bind_eq_some_iff] at reads
  obtain ⟨resolved, resolves, reads⟩ := reads
  split at reads
  case h_2 => exact .inl (isRead reads)
  case h_1 scalar =>
    split at reads
    · exact .inl (isRead reads)
    · next plain =>
        have isPlain : scalar.style = .plain := Decidable.not_not.mp plain
        split at reads
        · split at reads
          · next empty =>
              rw [Bool.or_eq_true] at empty
              exact .inr ⟨⟨scalar, resolves, isPlain, empty⟩, (Option.some.inj reads).symm⟩
          · exact .inl (isRead reads)
        · split at reads
          · exact .inl (isRead reads)
          · split at reads
            · next null =>
                exact .inr ⟨⟨scalar, resolves, isPlain, .inr null⟩, (Option.some.inj reads).symm⟩
            · cases reads

end Fields

end SourcePreview.Yaml.Document
