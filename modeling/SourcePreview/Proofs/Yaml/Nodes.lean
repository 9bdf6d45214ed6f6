import SourcePreview.Proofs.Yaml.Tokens
import SourcePreview.Yaml.Node

/-!
# Reading printed records back

The tokens of a record are those of a block mapping from the names of its fields to their values.
So a printed record is read back as that mapping, and nothing in it is an anchor, an alias or a tag.
-/

namespace SourcePreview.Yaml

namespace Value

mutual

/-- The node that a value is read back as. -/
def node : Value → Node
  | .word spelling => .scalar ⟨.plain, none, spelling⟩
  | .text value => .scalar ⟨styleOf value, none, value⟩
  | .record members => .mapping (memberNodes members)

/-- The nodes that the fields of a record are read back as, each with its key. -/
def memberNodes : List (String × Value) → List (Node × Node)
  | [] => []
  | (name, value) :: members =>
    (.scalar ⟨.plain, none, name⟩, node value) :: memberNodes members

end

section

variable
    {handles : List (List Char × Bytes)} {anchors : List (List Char × Nat)}
    {anchored : List (Nat × Node)} {rest : List Token} {depth : Nat}

theorem readNode_scalar (unindented : Bool) (style : ScalarStyle) (text : String) :
    readNode true unindented (depth + 1) ⟨.scalar style text :: rest, handles, anchors, anchored⟩ =
      some (.scalar ⟨style, none, text⟩, ⟨rest, handles, anchors, anchored⟩) := by
  rw [readNode]
  rfl

theorem readNode_blockMappingStart (unindented : Bool) :
    readNode true unindented (depth + 1)
        ⟨.blockMappingStart :: rest, handles, anchors, anchored⟩ =
      readMembers depth [] ⟨rest, handles, anchors, anchored⟩ := by
  rw [readNode]
  change Option.map _ (readMembers depth [] ⟨rest, handles, anchors, anchored⟩) = _
  cases readMembers depth [] ⟨rest, handles, anchors, anchored⟩ <;> rfl

/-- A token that a value starts with. -/
theorem exists_tokens_eq_cons (value : Value) :
    ∃ first more, value.tokens = first :: more ∧ first ∉ [Token.key, .value, .blockEnd] := by
  cases value with
  | word spelling => exact ⟨_, _, by rw [Value.tokens], by simp⟩
  | text value => exact ⟨_, _, by rw [Value.tokens], by simp⟩
  | record members => exact ⟨_, _, by rw [Value.tokens], by simp⟩

/-- A node that is there is not left out. -/
theorem readOptional_cons
    {first : Token} {ends : List Token} (isThere : first ∉ ends) :
    readOptional true true ends (depth + 1) ⟨first :: rest, handles, anchors, anchored⟩ =
      readNode true true depth ⟨first :: rest, handles, anchors, anchored⟩ := by
  rw [readOptional, if_neg]
  simpa [Reading.isAtOneOf, Reading.next?] using isThere

/-- A field of a record is read after those in front of it. -/
theorem readMembers_field
    {name : String} {value : Value} (read : List (Node × Node))
    (reads :
      readNode true true (depth + 1) ⟨value.tokens ++ rest, handles, anchors, anchored⟩ =
        some (value.node, ⟨rest, handles, anchors, anchored⟩)) :
    readMembers (depth + 3) read
        ⟨.key :: .scalar .plain name :: .value :: (value.tokens ++ rest), handles, anchors,
          anchored⟩ =
      readMembers (depth + 2) ((.scalar ⟨.plain, none, name⟩, value.node) :: read)
        ⟨rest, handles, anchors, anchored⟩ := by
  obtain ⟨first, more, isTokens, isThere⟩ := exists_tokens_eq_cons value
  rw [isTokens, List.cons_append] at reads ⊢
  have isNamed : Token.scalar .plain name ∉ [Token.key, .value, .blockEnd] := by simp
  have readsName (more : List Token) :
      readOptional true true [.key, .value, .blockEnd] (depth + 2)
          ⟨.scalar .plain name :: more, handles, anchors, anchored⟩ =
        some (.scalar ⟨.plain, none, name⟩, ⟨more, handles, anchors, anchored⟩) :=
    (readOptional_cons isNamed).trans (readNode_scalar true .plain name)
  have readsValue := (readOptional_cons isThere).trans reads
  rw [readMembers]
  simp [Reading.next?, Reading.skip, readsName, readsValue]

/-- The fields of a record are read up to the end of its block. -/
theorem readMembers_blockEnd (read : List (Node × Node)) :
    readMembers (depth + 1) read ⟨.blockEnd :: rest, handles, anchors, anchored⟩ =
      some (.mapping read.reverse, ⟨rest, handles, anchors, anchored⟩) := by
  rw [readMembers]
  rfl

end

mutual

/-- A value is read back from its tokens. -/
theorem readNode_tokens
    (value : Value) {depth : Nat} (enough : value.tokens.length ≤ depth) (unindented : Bool)
    (rest : List Token) (handles : List (List Char × Bytes)) (anchors : List (List Char × Nat))
    (anchored : List (Nat × Node)) :
    readNode true unindented depth ⟨value.tokens ++ rest, handles, anchors, anchored⟩ =
      some (value.node, ⟨rest, handles, anchors, anchored⟩) := by
  obtain ⟨first, more, isTokens, _⟩ := exists_tokens_eq_cons value
  obtain ⟨depth, rfl⟩ : ∃ fewer, depth = fewer + 1 := by
    apply Nat.exists_eq_add_one_of_ne_zero
    rw [isTokens, List.length_cons] at enough
    omega
  match value with
  | .word spelling =>
      rw [Value.tokens, Value.node]
      exact readNode_scalar unindented .plain spelling
  | .text value =>
      rw [Value.tokens, Value.node]
      exact readNode_scalar unindented (styleOf value) value
  | .record members =>
      rw [Value.tokens] at enough ⊢
      rw [Value.node, List.cons_append, readNode_blockMappingStart, List.append_assoc]
      exact readMembers_tokens members (by simpa using enough) [] rest handles anchors anchored

/-- The fields of a record are read back from their tokens. -/
theorem readMembers_tokens
    (members : List (String × Value)) {depth : Nat}
    (enough : (membersTokens members).length + 1 ≤ depth) (read : List (Node × Node))
    (rest : List Token) (handles : List (List Char × Bytes)) (anchors : List (List Char × Nat))
    (anchored : List (Nat × Node)) :
    readMembers depth read
        ⟨membersTokens members ++ .blockEnd :: rest, handles, anchors, anchored⟩ =
      some
        (.mapping (read.reverse ++ memberNodes members), ⟨rest, handles, anchors, anchored⟩) := by
  match members with
  | [] =>
      obtain ⟨depth, rfl⟩ := Nat.exists_eq_add_one_of_ne_zero (Nat.ne_of_gt enough)
      rw [memberNodes, List.append_nil]
      exact readMembers_blockEnd read
  | (name, value) :: members =>
      rw [membersTokens] at enough ⊢
      simp only [List.length_cons, List.length_append] at enough
      obtain ⟨depth, rfl⟩ : ∃ fewer, depth = fewer + 3 := Nat.exists_eq_add_of_le' (by omega)
      have enoughHere : value.tokens.length ≤ depth + 1 := by omega
      rw [List.cons_append, List.cons_append, List.cons_append, List.append_assoc,
        readMembers_field read
          (readNode_tokens value enoughHere true _ handles anchors anchored),
        readMembers_tokens members (by omega) _ rest handles anchors anchored, memberNodes,
        List.reverse_cons, List.append_assoc]
      rfl

end

end Value

/-- The tokens of a value are those of one node and nothing else. -/
theorem Document.readRoot_tokens (value : Value) :
    Document.readRoot [] value.tokens = some ⟨value.node, []⟩ := by
  have enough : value.tokens.length ≤ 4 * value.tokens.length + 4 := by omega
  have reads := Value.readNode_tokens value enough false [] ([] ++ Document.standardHandles) [] []
  rw [List.append_nil] at reads
  rw [Document.readRoot, reads]
  rfl

/-- A printed record is read back as the mapping that it stands for. -/
theorem Document.parse?_printRecord
    {members : List (String × Value)} (notEmpty : members ≠ [])
    (writable : Value.AreWritable members) :
    Document.parse? (printRecord members) =
      some ⟨.mapping (Value.memberNodes members), []⟩ := by
  have reads := Document.readRoot_tokens (.record members)
  rw [Value.tokens, Value.node] at reads
  rw [Document.parse?, tokens?_printRecord notEmpty writable, Value.tokens, ← reads]
  rfl

end SourcePreview.Yaml
