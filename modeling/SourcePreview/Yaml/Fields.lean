import SourcePreview.Yaml.Node

/-!
# Records in YAML documents

A record is a mapping whose keys are scalars.  Unknown keys do not matter, and no field may be
given twice.  What a scalar is read as depends on the field: every scalar is a text, but only a
plain one, or a literal one that is tagged so, is a truth value or a number.
-/

namespace SourcePreview.Yaml.Document

/-- The tag of a kind of scalar. -/
def kindTag (kind : String) : Bytes :=
  ("tag:yaml.org,2002:" ++ kind).toList.flatMap String.utf8EncodeChar

/-- Whether a scalar may be read as something other than a text. -/
def isTyped (kind : String) (scalar : Scalar) : Bool :=
  scalar.style == .plain || (scalar.style == .literal && scalar.tag == some (kindTag kind))

/-- The scalar that a node stands for. -/
def scalar? (document : Document) (node : Node) : Option Scalar :=
  match document.resolve node with
  | some (.scalar scalar) => some scalar
  | _ => none

/-- The text of a scalar. -/
def text? (document : Document) (node : Node) : Option String :=
  (document.scalar? node).map (·.text)

/-- The truth value that a word spells. -/
def boolOf? (word : String) : Option Bool :=
  if word ∈ ["true", "True", "TRUE"] then some true
  else if word ∈ ["false", "False", "FALSE"] then some false
  else none

/-- The truth value of a scalar. -/
def bool? (document : Document) (node : Node) : Option Bool := do
  let scalar ← document.scalar? node
  if isTyped "bool" scalar then boolOf? scalar.text else none

/-- The value of a digit in either case. -/
def digitValue? (base : Nat) (digit : Char) : Option Nat :=
  let value :=
    if '0' ≤ digit ∧ digit ≤ '9' then digit.toNat - '0'.toNat
    else if 'a' ≤ digit ∧ digit ≤ 'z' then digit.toNat - 'a'.toNat + 10
    else if 'A' ≤ digit ∧ digit ≤ 'Z' then digit.toNat - 'A'.toNat + 10
    else base
  if value < base then some value else none

/-- The number that digits spell in a base. -/
def numberIn? (base : Nat) (digits : List Char) : Option Nat :=
  if digits.isEmpty then none
  else
    digits.foldlM (fun number digit =>
      (digitValue? base digit).map fun value => number * base + value) 0

/-- The natural number that a word spells, in base ten or in one that its first two characters
tell.  A zero may not come before other decimal digits. -/
def naturalOf? (word : List Char) : Option Nat :=
  let unsigned :=
    match word with
    | '+' :: rest => rest
    | other => other
  match unsigned with
  | '0' :: 'x' :: rest => numberIn? 16 rest
  | '0' :: 'o' :: rest => numberIn? 8 rest
  | '0' :: 'b' :: rest => numberIn? 2 rest
  | ['0'] => some 0
  | '0' :: _ => none
  | digits => numberIn? 10 digits

/-- The natural number of a scalar, which must be less than a bound. -/
def nat? (bound : Nat) (document : Document) (node : Node) : Option Nat := do
  let scalar ← document.scalar? node
  if !isTyped "int" scalar then none
  let number ← naturalOf? scalar.text.toList
  if number < bound then return number else none

/-- Whether a word stands for nothing. -/
def isNull (word : String) : Bool :=
  word ∈ ["null", "Null", "NULL", "~"]

/-- What a node that may stand for nothing is read as. -/
def optional? {α : Type} (read : Document → Node → Option α) (document : Document) (node : Node) :
    Option (Option α) := do
  match ← document.resolve node with
  | .scalar scalar =>
    if scalar.style ≠ .plain then (read document node).map some
    else
      match scalar.tag with
      | none =>
        if scalar.text.isEmpty || isNull scalar.text then some none
        else (read document node).map some
      | some tag =>
        if tag ≠ kindTag "null" then (read document node).map some
        else if isNull scalar.text then some none
        else none
  | _ => (read document node).map some

/-- The members of a mapping with their keys.  A scalar with nothing in it is an empty mapping. -/
def members? (document : Document) (node : Node) : Option (List (String × Node)) := do
  match ← document.resolve node with
  | .mapping members =>
    members.mapM fun (key, value) => (document.text? key).map fun name => (name, value)
  | .scalar scalar => if scalar.style = .plain ∧ scalar.text.isEmpty then some [] else none
  | _ => none

/-- The value of a field, or nothing if it is missing.  It fails if the field is given twice. -/
def field? (members : List (String × Node)) (name : String) : Option (Option Node) :=
  match members.filter fun member => member.1 == name with
  | [] => some none
  | [(_, value)] => some (some value)
  | _ => none

/-- The value of a field that must be there. -/
def required? {α : Type} (document : Document) (members : List (String × Node)) (name : String)
    (read : Document → Node → Option α) : Option α := do
  read document (← ← field? members name)

/-- The value of a field that may be missing. -/
def orDefault? {α : Type} (fallback : α) (document : Document) (members : List (String × Node))
    (name : String) (read : Document → Node → Option α) : Option α := do
  match ← field? members name with
  | some node => read document node
  | none => return fallback

end SourcePreview.Yaml.Document
