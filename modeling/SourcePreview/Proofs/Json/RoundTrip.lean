import SourcePreview.Proofs.Json.Spellings

/-!
# Reading printed JSON documents back

A document whose strings are written texts and whose numbers are written natural numbers is read
back from what is printed of it.  Without any space and with one part on a line it is spelled in
two ways, and every spelling is read as the document.
-/

namespace SourcePreview.Json

mutual

/-- Whether all strings are written texts and all numbers written natural numbers. -/
def Written : Json → Prop
  | .null => True
  | .bool _ => True
  | .number spelling => ∃ value, spelling = decimal value
  | .string written => ∃ text, written = escape text
  | .array items => ItemsWritten items
  | .object members => MembersWritten members

/-- Whether the items of an array are written in this way. -/
def ItemsWritten : List Json → Prop
  | [] => True
  | item :: items => Written item ∧ ItemsWritten items

/-- Whether the keys and values of an object are written in this way. -/
def MembersWritten : List (Bytes × Json) → Prop
  | [] => True
  | (key, value) :: members =>
    (∃ text, key = escape text) ∧ Written value ∧ MembersWritten members

end

theorem written_ofNat (value : Nat) : Written (ofNat value) :=
  ⟨value, rfl⟩

theorem written_ofText (text : String) : Written (ofText text) :=
  ⟨text, rfl⟩

theorem itemsWritten_iff {items : List Json} :
    ItemsWritten items ↔ ∀ item ∈ items, Written item := by
  induction items with
  | nil => simp [ItemsWritten]
  | cons item items ih => simp [ItemsWritten, ih]

theorem membersWritten_iff {members : List (Bytes × Json)} :
    MembersWritten members ↔
      ∃ named : List (String × Json),
        members = named.map (fun (name, value) => (escape name, value)) ∧
          ∀ member ∈ named, Written member.2 := by
  constructor
  · intro written
    induction members with
    | nil => exact ⟨[], rfl, by simp⟩
    | cons member members ih =>
        obtain ⟨key, value⟩ := member
        obtain ⟨⟨text, rfl⟩, valueWritten, others⟩ := written
        obtain ⟨named, rfl, allWritten⟩ := ih others
        exact ⟨(text, value) :: named, rfl, List.forall_mem_cons.mpr ⟨valueWritten, allWritten⟩⟩
  · rintro ⟨named, rfl, written⟩
    induction named with
    | nil => trivial
    | cons member named ih =>
        obtain ⟨valueWritten, others⟩ := List.forall_mem_cons.mp written
        exact ⟨⟨member.1, rfl⟩, valueWritten, ih others⟩

theorem written_ofMembers
    {members : List (String × Json)}
    (written : ∀ member ∈ members, Written member.2) :
    Written (ofMembers members) :=
  membersWritten_iff.mpr ⟨members, rfl, written⟩

/-- Induction on the parts of a document of written texts and numbers. -/
theorem written_induction
    {motive : Json → Prop}
    (null : motive .null)
    (bool : ∀ value, motive (.bool value))
    (number : ∀ value, motive (ofNat value))
    (string : ∀ text, motive (ofText text))
    (array : ∀ items, (∀ item ∈ items, motive item) → motive (.array items))
    (object : ∀ members, (∀ member ∈ members, motive member.2) → motive (ofMembers members))
    (document : Json) (written : Written document) :
    motive document := by
  match document, written with
  | .null, _ => exact null
  | .bool value, _ => exact bool value
  | .number _, ⟨value, rfl⟩ => exact number value
  | .string _, ⟨text, rfl⟩ => exact string text
  | .array items, written =>
      refine array items fun item inside => ?_
      have smaller := List.sizeOf_lt_of_mem inside
      exact
        written_induction null bool number string array object item
          (itemsWritten_iff.mp written item inside)
  | .object members, written =>
      obtain ⟨named, isNamed, allWritten⟩ := membersWritten_iff.mp written
      refine isNamed ▸ object named fun (name, value) inside => ?_
      have member : (escape name, value) ∈ members := isNamed ▸ List.mem_map_of_mem inside
      have smaller := List.sizeOf_lt_of_mem member
      exact
        written_induction null bool number string array object value
          (allWritten (name, value) inside)
termination_by sizeOf document
decreasing_by
  · simp only [Json.array.sizeOf_spec]
    omega
  · simp only [Json.object.sizeOf_spec, Prod.mk.sizeOf_spec] at smaller ⊢
    omega

/-! ### Printing without any space -/

section Compact

attribute [local simp] compactMembers

theorem spells_compactItems
    {item : Json} {items : List Json}
    (spelled : ∀ part ∈ item :: items, Spells (.document part) (compact part)) :
    Spells (.items (item :: items)) (compactItems (item :: items)) := by
  induction items generalizing item with
  | nil => exact .lastItem (spelled item List.mem_cons_self) isGap_nil
  | cons next items ih =>
      obtain ⟨first, others⟩ := List.forall_mem_cons.mp spelled
      exact .moreItems first isGap_nil isGap_nil (ih others)

theorem spells_compactMembers
    {member : String × Json} {members : List (String × Json)}
    (spelled : ∀ part ∈ member :: members, Spells (.document part.2) (compact part.2)) :
    Spells (.members ((member :: members).map fun (name, value) => (escape name, value)))
      (compactMembers ((member :: members).map fun (name, value) => (escape name, value))) := by
  induction members generalizing member with
  | nil =>
      have only :=
        Spells.member member.1 isGap_nil isGap_nil (spelled member List.mem_cons_self)
      simpa using only.lastMember isGap_nil
  | cons next members ih =>
      obtain ⟨first, others⟩ := List.forall_mem_cons.mp spelled
      have spelledFirst := Spells.member member.1 isGap_nil isGap_nil first
      simpa using spelledFirst.moreMembers isGap_nil isGap_nil (ih others)

/-- A document is spelled by its form without any space. -/
theorem spells_compact (document : Json) (written : Written document) :
    Spells (.document document) (compact document) := by
  refine
    written_induction (motive := fun document => Spells (.document document) (compact document))
      .null .bool .number .string (fun items ih => ?_) (fun members ih => ?_) document written
  · cases items with
    | nil => exact .emptyArray isGap_nil
    | cons item items => exact .array isGap_nil (spells_compactItems ih)
  · cases members with
    | nil => exact .emptyObject isGap_nil
    | cons member members => exact .object isGap_nil (spells_compactMembers ih)

end Compact

/-! ### Printing on lines -/

section Pretty

attribute [local simp] prettyItems prettyMembers

theorem isGap_newLine (level : Nat) : IsGap (newLine level) := by
  intro byte member
  rcases List.mem_cons.mp member with rfl | space
  · rfl
  · rw [List.eq_of_mem_replicate space]
    rfl

theorem isGap_space : IsGap [0x20] := by
  simp [IsGap, isSpace]

theorem exists_spells_prettyItems
    {level : Nat} {item : Json} {items : List Json}
    (spelled : ∀ part ∈ item :: items,
      Spells (.document part) (pretty (level + 1) part)) :
    ∃ bytes,
      prettyItems level (item :: items) = newLine (level + 1) ++ bytes ∧
        Spells (.items (item :: items)) bytes := by
  induction items generalizing item with
  | nil =>
      have only := spelled item List.mem_cons_self
      exact ⟨_, by simp, only.lastItem (isGap_newLine level)⟩
  | cons next items ih =>
      obtain ⟨first, others⟩ := List.forall_mem_cons.mp spelled
      obtain ⟨bytes, printed, spelledOthers⟩ := ih others
      refine ⟨_, ?_, first.moreItems isGap_nil (isGap_newLine (level + 1)) spelledOthers⟩
      simp [printed]

theorem exists_spells_prettyMembers
    {level : Nat} {member : String × Json} {members : List (String × Json)}
    (spelled : ∀ part ∈ member :: members,
      Spells (.document part.2) (pretty (level + 1) part.2)) :
    ∃ bytes,
      prettyMembers level
            ((member :: members).map fun (name, value) => (escape name, value)) =
          newLine (level + 1) ++ bytes ∧
        Spells (.members ((member :: members).map fun (name, value) => (escape name, value)))
          bytes := by
  induction members generalizing member with
  | nil =>
      have only :=
        Spells.member member.1 isGap_nil isGap_space (spelled member List.mem_cons_self)
      exact ⟨_, by simp, only.lastMember (isGap_newLine level)⟩
  | cons next members ih =>
      obtain ⟨first, others⟩ := List.forall_mem_cons.mp spelled
      obtain ⟨bytes, printed, spelledOthers⟩ := ih others
      have spelledFirst := Spells.member member.1 isGap_nil isGap_space first
      refine
        ⟨_, ?_, spelledFirst.moreMembers isGap_nil (isGap_newLine (level + 1)) spelledOthers⟩
      simp only [List.map_cons] at printed ⊢
      simp [printed]

/-- A document is spelled by its form on lines. -/
theorem spells_pretty (document : Json) (written : Written document) (level : Nat) :
    Spells (.document document) (pretty level document) := by
  refine
    written_induction
      (motive := fun document => ∀ level, Spells (.document document) (pretty level document))
      (fun _ => .null) (fun value _ => .bool value) (fun value _ => .number value)
      (fun text _ => .string text) (fun items ih level => ?_) (fun members ih level => ?_)
      document written level
  · cases items with
    | nil => exact .emptyArray isGap_nil
    | cons item items =>
        obtain ⟨bytes, printed, spelled⟩ :=
          exists_spells_prettyItems fun part inside => ih part inside (level + 1)
        rw [pretty, printed]
        exact spelled.array (isGap_newLine (level + 1))
  · cases members with
    | nil => exact .emptyObject isGap_nil
    | cons member members =>
        obtain ⟨bytes, printed, spelled⟩ :=
          exists_spells_prettyMembers fun part inside => ih part inside (level + 1)
        have form :
            pretty level (ofMembers (member :: members)) =
              0x7B :: (newLine (level + 1) ++ bytes) := by
          rw [← printed]
          rfl
        rw [form]
        exact spelled.object (isGap_newLine (level + 1))

end Pretty

/-! ### Reading back -/

/-- A printed document is read back, with what comes after it left. -/
theorem readValue_compact
    (document : Json) (written : Written document)
    (depth : Nat) (enough : (compact document).length ≤ depth)
    {rest : Bytes} (ends : EndsNumber rest) :
    readValue depth (compact document ++ rest) = some (document, rest) :=
  (spells_compact document written).isReadFrom depth rest enough ends

/-- A printed document spells the document. -/
theorem parse?_compact
    {document : Json} (written : Written document) :
    parse? (compact document) = some document := by
  have read := parse?_of_spells (spells_compact document written) isGap_nil isGap_nil
  simpa using read

end SourcePreview.Json
