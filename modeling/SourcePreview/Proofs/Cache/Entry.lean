import SourcePreview.Cache.Entry
import SourcePreview.Proofs.Json.RoundTrip
import Mathlib.Data.List.Nodup

/-!
# Reading entries back

The record of a styled text is printed and read back as it was: every field is found by its name
because no two fields of a record share one, and each kind of field has a reader that undoes its
writer.  An entry is therefore read back as the styled text it was made of, and is refused exactly
when the spans of that text are not well formed.
-/

namespace SourcePreview

namespace Json

/-- Only one member has the name of a member if all names are distinct. -/
theorem filter_name_eq_singleton
    {members : List (String × Json)} {member : String × Json}
    (distinct : (members.map Prod.fst).Nodup) (inside : member ∈ members) :
    members.filter (fun other => other.1 == member.1) = [member] := by
  obtain ⟨before, after, rfl⟩ := List.append_of_mem inside
  rw [List.map_append, List.map_cons, List.nodup_middle, List.nodup_cons, List.mem_append,
    not_or] at distinct
  obtain ⟨⟨notBefore, notAfter⟩, -⟩ := distinct
  have none {others : List (String × Json)} (fresh : member.1 ∉ others.map Prod.fst) :
      others.filter (fun other => other.1 == member.1) = [] := by
    rw [List.filter_eq_nil_iff]
    intro other isMember same
    exact fresh (List.mem_map.mpr ⟨other, isMember, by simpa using same⟩)
  rw [List.filter_append, none notBefore, List.filter_cons_of_pos (by simp),
    none notAfter, List.nil_append]

/-- The names of members are read as they were written. -/
theorem mapM_unescape?_escape (members : List (String × Json)) :
    (members.map fun member => (escape member.1, member.2)).mapM
        (fun member => (unescape? member.1).map fun name => (name, member.2)) =
      some members := by
  induction members with
  | nil => rfl
  | cons member members ih => simp [ih]

theorem fields?_ofMembers_eq
    (names : List String) (members : List (String × Json)) :
    fields? names (ofMembers members) = fieldsOfMembers names members :=
  congrArg (Option.bind · (fieldsOfMembers names)) (mapM_unescape?_escape members)

/-- A record gives each of its fields, whatever other fields it has. -/
theorem fields?_ofMembers_of_subset
    {members wanted : List (String × Json)}
    (distinct : (members.map Prod.fst).Nodup) (inside : wanted ⊆ members) :
    fields? (wanted.map Prod.fst) (ofMembers members) =
      some (wanted.map fun member => some member.2) := by
  rw [fields?_ofMembers_eq]
  induction wanted with
  | nil => rfl
  | cons member wanted ih =>
      have alone :=
        filter_name_eq_singleton distinct (inside (List.mem_cons_self ..))
      have others :=
        ih fun other isWanted => inside (List.mem_cons_of_mem _ isWanted)
      rw [fieldsOfMembers] at others ⊢
      simp [alone, others]

/-- A record with a name for every field gives all of them. -/
theorem fields?_ofMembers
    (members : List (String × Json))
    (distinct : (members.map Prod.fst).Nodup) :
    fields? (members.map Prod.fst) (ofMembers members) =
      some (members.map fun member => some member.2) :=
  fields?_ofMembers_of_subset distinct (List.Subset.refl members)

@[simp]
theorem nat?_ofNat (value : Nat) : (ofNat value).nat? = some value :=
  natural?_decimal value

@[simp]
theorem text?_ofText (text : String) : (ofText text).text? = some text :=
  unescape?_escape text

@[simp]
theorem name?_ofText (text : String) : (ofText text).name? = some text :=
  unescape?_escape text

@[simp]
theorem channel?_ofNat (channel : UInt8) :
    channel? (ofNat channel.toNat) = some channel := by
  simp [channel?, channel.toNat_lt]

@[simp]
theorem color?_ofColor (color : Color) : color? (ofColor color) = some color := by
  have fields :=
    fields?_ofMembers
      [("r", ofNat color.red.toNat), ("g", ofNat color.green.toNat),
        ("b", ofNat color.blue.toNat), ("a", ofNat color.alpha.toNat)]
      (by simp)
  simp only [List.map_cons, List.map_nil] at fields
  simp [color?, ofColor, fields, required]

@[simp]
theorem style?_ofStyle (style : Style) : style? (ofStyle style) = some style := by
  have fields :=
    fields?_ofMembers
      [("color", ofColor style.color), ("bold", .bool style.bold),
        ("italic", .bool style.italic)]
      (by simp)
  simp only [List.map_cons, List.map_nil] at fields
  simp [style?, ofStyle, fields, required, orDefault, bool?]

@[simp]
theorem palette?_ofPalette (palette : Palette) :
    palette? (ofPalette palette) = some palette := by
  have fields :=
    fields?_ofMembers
      (("background", ofColor palette.background) ::
        ("foreground", ofColor palette.foreground) ::
        TokenClass.all.map fun tokenClass =>
          (tokenClass.name, ofStyle (palette.style tokenClass)))
      (by simp [TokenClass.all, TokenClass.name])
  simp only [TokenClass.all, Palette.style, List.map_cons, List.map_nil] at fields
  simp [palette?, ofPalette, TokenClass.all, Palette.style, fields, required]

@[simp]
theorem span?_ofSpan (span : Span) : span? (ofSpan span) = some span := by
  have fields :=
    fields?_ofMembers
      [("start", ofNat span.start), ("end", ofNat span.stop),
        ("style", ofText span.tokenClass.name)]
      (by simp)
  simp only [List.map_cons, List.map_nil] at fields
  simp [span?, ofSpan, fields, required, tokenClass?]

@[simp]
theorem spans?_map_ofSpan (spans : List Span) :
    spans? (.array (spans.map ofSpan)) = some spans := by
  have each : (spans.map ofSpan).mapM span? = some spans := by
    induction spans with
    | nil => rfl
    | cons span spans ih => simp [ih]
  simp [spans?, items?, each]

/-- A record with the members of a styled text gives the styled text. -/
theorem styledText?_ofMembers_of_subset
    {members : List (String × Json)} {styled : StyledText}
    (distinct : (members.map Prod.fst).Nodup)
    (inside : membersOfStyledText styled ⊆ members) :
    styledText? (ofMembers members) = some styled := by
  have fields := fields?_ofMembers_of_subset distinct inside
  simp only [membersOfStyledText, List.map_cons, List.map_nil] at fields
  simp [styledText?, fields, required, orDefault, language?, bool?]

theorem nodup_membersOfStyledText (styled : StyledText) :
    ((membersOfStyledText styled).map Prod.fst).Nodup := by
  simp [membersOfStyledText]

/-- The record of a styled text gives the styled text. -/
@[simp]
theorem styledText?_ofMembers (styled : StyledText) :
    styledText? (ofMembers (membersOfStyledText styled)) = some styled :=
  styledText?_ofMembers_of_subset (nodup_membersOfStyledText styled) (List.Subset.refl _)

theorem written_ofColor (color : Color) : Written (ofColor color) := by
  refine written_ofMembers fun member isMember => ?_
  simp only [List.mem_cons, List.not_mem_nil, or_false] at isMember
  rcases isMember with rfl | rfl | rfl | rfl
  all_goals exact written_ofNat _

theorem written_ofStyle (style : Style) : Written (ofStyle style) := by
  refine written_ofMembers fun member isMember => ?_
  simp only [List.mem_cons, List.not_mem_nil, or_false] at isMember
  rcases isMember with rfl | rfl | rfl
  · exact written_ofColor _
  all_goals trivial

theorem written_ofPalette (palette : Palette) : Written (ofPalette palette) := by
  refine written_ofMembers fun member isMember => ?_
  simp only [List.mem_cons, List.mem_map] at isMember
  rcases isMember with rfl | rfl | ⟨tokenClass, _, rfl⟩
  · exact written_ofColor _
  · exact written_ofColor _
  · exact written_ofStyle _

theorem written_ofSpan (span : Span) : Written (ofSpan span) := by
  refine written_ofMembers fun member isMember => ?_
  simp only [List.mem_cons, List.not_mem_nil, or_false] at isMember
  rcases isMember with rfl | rfl | rfl
  · exact written_ofNat _
  · exact written_ofNat _
  · exact written_ofText _

theorem written_of_mem_membersOfStyledText
    {styled : StyledText} {member : String × Json}
    (isMember : member ∈ membersOfStyledText styled) :
    Written member.2 := by
  simp only [membersOfStyledText, List.mem_cons, List.not_mem_nil, or_false]
    at isMember
  rcases isMember with rfl | rfl | rfl | rfl | rfl
  · exact written_ofText _
  · exact written_ofText _
  · refine itemsWritten_iff.mpr fun item isItem => ?_
    obtain ⟨span, _, rfl⟩ := List.mem_map.mp isItem
    exact written_ofSpan span
  · exact written_ofPalette _
  · trivial

/-- The record of a styled text is made of written texts and numbers. -/
theorem written_membersOfStyledText (styled : StyledText) :
    Written (ofMembers (membersOfStyledText styled)) :=
  written_ofMembers fun _ isMember => written_of_mem_membersOfStyledText isMember

end Json

namespace Entry

/-- What follows the header of an entry can be read as the record of the styled text, whether or
not its spans are well formed. -/
theorem styledText?_of_encode (styled : StyledText) :
    (Json.parse? ((encode styled).drop header.length)).bind Json.styledText? =
      some styled := by
  rw [encode, List.drop_left,
    Json.parse?_compact (Json.written_membersOfStyledText styled)]
  exact Json.styledText?_ofMembers styled

/-- An entry is read back as it was written, unless its spans are not well formed. -/
theorem decode_encode (styled : StyledText) :
    decode (encode styled) =
      if styled.isWellFormed then .ok styled else .error .corrupt := by
  have split :
      encode styled =
        magic ++ (versionBytes formatVersion ++
          (Json.ofMembers (Json.membersOfStyledText styled)).compact) := by
    rw [encode, header, List.append_assoc]
  have long : ¬ (encode styled).length < header.length := by
    rw [encode, List.length_append]
    omega
  have letters : (encode styled).take magic.length = magic := by
    rw [split, List.take_left]
  have version :
      versionOf (((encode styled).drop magic.length).take 4) = formatVersion := by
    rw [split, List.drop_left,
      show 4 = (versionBytes formatVersion).length from rfl, List.take_left]
    rfl
  simp [decode, long, letters, version, styledText?_of_encode styled]

/-- An entry with well-formed spans is read back. -/
theorem decode_encode_of_isWellFormed
    {styled : StyledText} (wellFormed : styled.isWellFormed = true) :
    decode (encode styled) = .ok styled := by
  rw [decode_encode, if_pos wellFormed]

theorem decode_encode_eq_ok_iff {styled found : StyledText} :
    decode (encode styled) = .ok found ↔ styled.isWellFormed = true ∧ found = styled := by
  rw [decode_encode]
  cases styled.isWellFormed <;> simp [eq_comm]

/-- Every styled text has an entry, of four letters, the version and a record that loses nothing.
The entry is read back exactly if the spans are well formed, and is corrupt otherwise. -/
theorem decode_encode_iff_isWellFormed (styled : StyledText) :
    (∃ document,
        encode styled =
            [0x47, 0x4C, 0x48, 0x4C, 0x01, 0x00, 0x00, 0x00] ++ document ∧
          (Json.parse? document).bind Json.styledText? = some styled) ∧
      (decode (encode styled) = .ok styled ↔ styled.isWellFormed = true) ∧
      (decode (encode styled) = .error .corrupt ↔ styled.isWellFormed = false) := by
  have written : header = [0x47, 0x4C, 0x48, 0x4C, 0x01, 0x00, 0x00, 0x00] := by decide
  refine ⟨⟨(encode styled).drop header.length, ?_, styledText?_of_encode styled⟩, ?_⟩
  · rw [← written, encode, List.drop_left]
  · rw [decode_encode]
    cases styled.isWellFormed <;> simp

end Entry

end SourcePreview
