import SourcePreview.Terminal
import SourcePreview.Proofs.StyledText.Lookup
import SourcePreview.Proofs.Terminal.Screen

/-!
# Styled texts on a terminal

What is printed for a styled text leads the terminal from its own style through that of every
stretch and back again.  So each stretch can be looked at by itself, and no style is left over at a
line feed or at the end.  Main statements: `withoutSequences_ansi` and `screen_ansi`.
-/

namespace SourcePreview.Terminal

/-- A printed text, whatever follows it, shows some cells and leads from one style to another. -/
def Leads (text : List Char) (before : Pen) (cells : List Cell) (after : Pen) : Prop :=
  ∃ pieces,
    (∀ rest, piecesFrom none (text ++ rest) = pieces ++ piecesFrom none rest) ∧
      draw before pieces = ⟨cells, after⟩

namespace Leads

variable {first second : List Char} {start middle stop : Pen} {left right : List Cell}

theorem nothing (pen : Pen) : Leads [] pen [] pen :=
  ⟨[], fun _ => rfl, rfl⟩

theorem append (leads : Leads first start left middle) (goesOn : Leads second middle right stop) :
    Leads (first ++ second) start (left ++ right) stop := by
  obtain ⟨pieces, apart, drawn⟩ := leads
  obtain ⟨others, othersApart, othersDrawn⟩ := goesOn
  refine ⟨pieces ++ others, fun rest => ?_, ?_⟩
  · rw [List.append_assoc, apart, othersApart, List.append_assoc]
  · rw [draw_append, drawn, othersDrawn]

/-- Characters are shown as they are, as long as none of them begins an escape sequence. -/
theorem ofText {text : List Char} (noEscape : '\x1b' ∉ text) (pen : Pen) :
    Leads text pen (text.map (⟨·, pen⟩)) pen :=
  ⟨text.map .shown, piecesFrom_text noEscape, draw_characters pen text⟩

/-- The code of some numbers changes the style and shows nothing. -/
theorem ofNumbers
    {code : String} (values : List Nat) (nonempty : values ≠ [])
    (spells : code.toList = written values) (pen : Pen) :
    Leads (displayCode code).toList pen [] (pen.obey values) := by
  refine ⟨[.sequence code.toList], fun rest => ?_, ?_⟩
  · rw [displayCode, String.toList_append, String.toList_append, List.append_assoc,
      List.append_assoc]
    exact piecesFrom_code (spells ▸ notMem_written values) [] rest
  · rw [draw, draw, spells, numbers_written nonempty]

/-- What a text shows from the terminal's own style on. -/
theorem screen_eq {text : String} {cells : List Cell} {after : Pen}
    (leads : Leads text.toList .initial cells after) :
    screen text = ⟨cells, after⟩ := by
  obtain ⟨pieces, apart, drawn⟩ := leads
  have all := apart []
  rw [List.append_nil, piecesFrom, List.append_nil] at all
  rw [screen, all, drawn]

end Leads

/-- The style that a terminal shows a style of a palette in. -/
def penOf (style : Style) : Pen :=
  ⟨style.bold, style.italic,
    some (style.color.red.toNat, style.color.green.toNat, style.color.blue.toNat)⟩

theorem leads_bold (pen : Pen) : Leads bold.toList pen [] { pen with bold := true } :=
  .ofNumbers [1] (List.cons_ne_nil _ _) (by decide) pen

theorem leads_italic (pen : Pen) : Leads italic.toList pen [] { pen with italic := true } :=
  .ofNumbers [3] (List.cons_ne_nil _ _) (by decide) pen

theorem leads_reset (pen : Pen) : Leads reset.toList pen [] .initial :=
  .ofNumbers [0] (List.cons_ne_nil _ _) (by decide) pen

theorem leads_foreground (color : Color) (pen : Pen) :
    Leads (foreground color).toList pen []
      { pen with foreground := some (color.red.toNat, color.green.toNat, color.blue.toNat) } := by
  refine
    .ofNumbers [38, 2, color.red.toNat, color.green.toNat, color.blue.toNat]
      (List.cons_ne_nil _ _) ?_ pen
  have select : "38;2;".toList = Nat.toDigits 10 38 ++ ';' :: (Nat.toDigits 10 2 ++ [';']) := by
    decide
  simp only [String.toList_append, Nat.toString_eq_repr, Nat.toList_repr, written_cons_cons,
    written_singleton, List.append_assoc, select]
  rfl

/-- A stretch is shown in its style, and the terminal gets its own style back. -/
theorem leads_styledStretch (style : Style) {text : List Char} (noEscape : '\x1b' ∉ text) :
    Leads (styledStretch style (String.ofList text)).toList .initial
      (text.map (⟨·, penOf style⟩)) .initial := by
  have setBold :
      Leads (if style.bold then bold else "").toList .initial []
        { Pen.initial with bold := style.bold } := by
    cases style.bold
    · exact .nothing _
    · exact leads_bold _
  have setItalic :
      Leads (if style.italic then italic else "").toList { Pen.initial with bold := style.bold } []
        { Pen.initial with bold := style.bold, italic := style.italic } := by
    cases style.italic
    · exact .nothing _
    · exact leads_italic _
  have shown :=
    (((setBold.append setItalic).append (leads_foreground style.color _)).append
      (.ofText noEscape _)).append (leads_reset _)
  simpa [styledStretch, penOf, Pen.initial] using shown

/-- The style that a segment is shown in: the terminal's own for a plain segment if plain text has
just the colour of the palette's text, and otherwise that of its class. -/
def shownPen (styled : StyledText) (segment : Segment) : Pen :=
  if segment.tokenClass = .plain ∧
      styled.palette.plain = Style.upright styled.palette.foreground then
    .initial
  else penOf (styled.palette.style segment.tokenClass)

/-- A character as it is shown: line feeds have no style. -/
def shownCell (pen : Pen) (character : Char) : Cell :=
  ⟨character, if character = '\n' then .initial else pen⟩

theorem shownCell_initial : shownCell .initial = (⟨·, .initial⟩) :=
  funext fun _ => by rw [shownCell, ite_self]

theorem map_shownCell {pen : Pen} {text : List Char} (oneLine : '\n' ∉ text) :
    text.map (shownCell pen) = text.map (⟨·, pen⟩) := by
  refine List.map_congr_left fun character member => ?_
  rw [shownCell, if_neg]
  rintro rfl
  exact oneLine member

theorem leads_closeStretch
    (style : Style) {reversed : List Char} (noEscape : '\x1b' ∉ reversed)
    (oneLine : '\n' ∉ reversed) :
    Leads (closeStretch style reversed).toList .initial
      (reversed.reverse.map (shownCell (penOf style))) .initial := by
  rw [map_shownCell (by rwa [List.mem_reverse])]
  cases reversed with
  | nil => exact .nothing _
  | cons character reversed =>
      exact leads_styledStretch style (by rwa [List.mem_reverse])

/-- The lines of a stretch are shown in its style, and the line feeds between them in none. -/
theorem leads_styledFrom
    (style : Style) (current text : List Char) (noEscape : '\x1b' ∉ current ++ text)
    (oneLine : '\n' ∉ current) :
    Leads (styledFrom style current text).toList .initial
      ((current.reverse ++ text).map (shownCell (penOf style))) .initial := by
  induction text generalizing current with
  | nil =>
      rw [List.append_nil] at noEscape ⊢
      exact leads_closeStretch style noEscape oneLine
  | cons character text ih =>
      rw [List.mem_append, List.mem_cons, not_or, not_or] at noEscape
      obtain ⟨inCurrent, isCharacter, inText⟩ := noEscape
      rw [styledFrom]
      split
      · next lineFeed =>
          have closed := leads_closeStretch style inCurrent oneLine
          have fed : Leads "\n".toList .initial [shownCell (penOf style) character] .initial := by
            rw [lineFeed]
            exact .ofText (by decide) .initial
          have others := ih [] (by simpa using inText) List.not_mem_nil
          simpa using (closed.append fed).append others
      · next sameLine =>
          have others := ih (character :: current)
            (by simp [inCurrent, isCharacter, inText]) (by simp [oneLine, Ne.symm sameLine])
          simpa using others

/-- Only a plain segment in upright letters of the text's colour is left to the terminal's style. -/
theorem isUnstyled_iff {styled : StyledText} {segment : Segment} :
    isUnstyled styled segment = true ↔
      segment.tokenClass = .plain ∧
        styled.palette.plain = Style.upright styled.palette.foreground := by
  simp only [isUnstyled, Bool.and_eq_true, beq_iff_eq, Bool.not_eq_eq_eq_not, Bool.not_true]
  constructor
  · rintro ⟨⟨⟨plain, color⟩, notBold⟩, notItalic⟩
    rw [plain] at color notBold notItalic
    refine ⟨plain, ?_⟩
    rw [Style.upright, ← color, ← notBold]
    exact Style.mk.injEq .. |>.mpr ⟨rfl, rfl, notItalic.trans notBold.symm⟩
  · rintro ⟨plain, upright⟩
    have style : styled.styleFor segment.tokenClass = Style.upright styled.palette.foreground := by
      rw [plain]
      exact upright
    rw [style]
    exact ⟨⟨⟨plain, rfl⟩, rfl⟩, rfl⟩

theorem leads_segmentText
    (styled : StyledText) {segment : Segment} (noEscape : '\x1b' ∉ segment.text.toList) :
    Leads (segmentText styled segment).toList .initial
      (segment.text.toList.map (shownCell (shownPen styled segment))) .initial := by
  rw [segmentText, shownPen]
  split
  · next unstyled =>
      rw [if_pos (isUnstyled_iff.mp unstyled)]
      exact shownCell_initial ▸ .ofText noEscape .initial
  · next styledSegment =>
      rw [if_neg (mt isUnstyled_iff.mpr styledSegment)]
      exact leads_styledFrom _ [] _ noEscape List.not_mem_nil

/-- The cells of segments that follow each other. -/
def shownSegments (styled : StyledText) (segments : List Segment) : List Cell :=
  segments.flatMap fun segment => segment.text.toList.map (shownCell (shownPen styled segment))

theorem leads_segments
    (styled : StyledText) {segments : List Segment}
    (noEscape : ∀ segment ∈ segments, '\x1b' ∉ segment.text.toList) :
    Leads (String.join (segments.map (segmentText styled))).toList .initial
      (shownSegments styled segments) .initial := by
  induction segments with
  | nil => exact .nothing _
  | cons segment segments ih =>
      rw [List.forall_mem_cons] at noEscape
      rw [List.map_cons, String.join_cons, String.toList_append]
      exact (leads_segmentText styled noEscape.1).append (ih noEscape.2)

/-- What a styled text looks like: its segments, each in its style, and the line feed that may be
missing. -/
theorem screen_ansi_eq
    {styled : StyledText} (noEscape : '\x1b' ∉ styled.text.toList) :
    screen (ansi styled) =
      ⟨shownSegments styled styled.segments ++
        (missingLineFeed styled.text).toList.map (⟨·, .initial⟩), .initial⟩ := by
  have inNoSegment : ∀ segment ∈ styled.segments, '\x1b' ∉ segment.text.toList := by
    intro segment member inside
    rw [← styled.flatMap_segments] at noEscape
    exact noEscape (List.mem_flatMap.mpr ⟨segment, member, inside⟩)
  have notFed : '\x1b' ∉ (missingLineFeed styled.text).toList := by
    rw [missingLineFeed]
    split <;> decide
  apply Leads.screen_eq
  rw [ansi, String.toList_append]
  exact (leads_segments styled inNoSegment).append (.ofText notFed .initial)

theorem map_character_shownSegments (styled : StyledText) (segments : List Segment) :
    (shownSegments styled segments).map Cell.character = segments.flatMap (·.text.toList) := by
  have same (pen : Pen) : Cell.character ∘ shownCell pen = id := rfl
  simp only [shownSegments, List.map_flatMap, List.map_map, same, List.map_id]

/-- Without its escape sequences, what is printed with styles is what is printed without them. -/
theorem withoutSequences_ansi
    (styled : StyledText) (noEscape : '\x1b' ∉ styled.text.toList) :
    withoutSequences (ansi styled) = plain styled := by
  have same : Cell.character ∘ (⟨·, Pen.initial⟩) = id := rfl
  rw [withoutSequences_eq, screen_ansi_eq noEscape, plain, ← String.toList_inj,
    String.toList_ofList, String.toList_append, List.map_append, map_character_shownSegments,
    StyledText.flatMap_segments, List.map_map, same, List.map_id]

theorem withoutSequences_ansi_assignment :
    '\x1b' ∉ StyledText.assignment.text.toList ∧
      withoutSequences (ansi StyledText.assignment) = "é = \"ü\"\nif m\n" := by
  have noEscape : '\x1b' ∉ StyledText.assignment.text.toList := by decide
  exact ⟨noEscape, (withoutSequences_ansi StyledText.assignment noEscape).trans (by decide)⟩

theorem getElem?_shownSegments
    (styled : StyledText) {segments : List Segment} {index : Nat} {character : Char}
    (found : (segments.flatMap (·.text.toList))[index]? = some character) :
    ∃ segment, StyledText.segmentAt? segments index = some segment ∧
      (shownSegments styled segments)[index]? =
        some (shownCell (shownPen styled segment) character) := by
  induction segments generalizing index with
  | nil => cases found
  | cons segment segments ih =>
      rw [List.flatMap_cons] at found
      rw [StyledText.segmentAt?, shownSegments, List.flatMap_cons]
      split
      · next inside =>
          rw [List.getElem?_append_left (by rwa [String.length_toList])] at found
          refine ⟨segment, rfl, ?_⟩
          rw [List.getElem?_append_left (by rwa [List.length_map, String.length_toList]),
            List.getElem?_map, found, Option.map_some]
      · next behind =>
          rw [List.getElem?_append_right (by rw [String.length_toList]; omega),
            String.length_toList] at found
          rw [List.getElem?_append_right (by rw [List.length_map, String.length_toList]; omega),
            List.length_map, String.length_toList]
          exact ih found

theorem pen_of_mem_shownSegments
    {styled : StyledText} {segments : List Segment} {cell : Cell}
    (member : cell ∈ shownSegments styled segments) (lineFeed : cell.character = '\n') :
    cell.pen = .initial := by
  obtain ⟨segment, _, inside⟩ := List.mem_flatMap.mp member
  obtain ⟨character, _, rfl⟩ := List.mem_map.mp inside
  exact if_pos lineFeed

/-- Every character other than a line feed is shown in the style of its segment, and the terminal
is in its own style at every line feed and at the end. -/
theorem screen_ansi
    (styled : StyledText) (noEscape : '\x1b' ∉ styled.text.toList) :
    (∀ index character, styled.text.toList[index]? = some character → character ≠ '\n' →
      ∃ segment, StyledText.segmentAt? styled.segments index = some segment ∧
        (screen (ansi styled)).cells[index]? = some ⟨character, shownPen styled segment⟩) ∧
      (∀ cell ∈ (screen (ansi styled)).cells, cell.character = '\n' → cell.pen = .initial) ∧
      (screen (ansi styled)).pen = .initial := by
  rw [screen_ansi_eq noEscape]
  refine ⟨fun index character found sameLine => ?_, fun cell member lineFeed => ?_, rfl⟩
  · rw [← styled.flatMap_segments] at found
    obtain ⟨segment, contains, shown⟩ := getElem?_shownSegments styled found
    have inside := (List.getElem?_eq_some_iff.mp shown).1
    refine ⟨segment, contains, ?_⟩
    rw [List.getElem?_append_left inside, shown, shownCell, if_neg sameLine]
  · obtain shown | fed := List.mem_append.mp member
    · exact pen_of_mem_shownSegments shown lineFeed
    · obtain ⟨_, _, rfl⟩ := List.mem_map.mp fed
      rfl

theorem screen_ansi_assignment :
    '\x1b' ∉ StyledText.assignment.text.toList ∧
      StyledText.assignment.text.toList[5]? = some 'ü' ∧
      (screen (ansi StyledText.assignment)).cells[5]? =
        some ⟨'ü', ⟨true, false, some (206, 145, 120)⟩⟩ ∧
      (screen (ansi StyledText.assignment)).pen = .initial := by
  have noEscape : '\x1b' ∉ StyledText.assignment.text.toList := by decide
  have character : StyledText.assignment.text.toList[5]? = some 'ü' := by decide
  have contains :
      StyledText.segmentAt? StyledText.assignment.segments 5 = some ⟨"ü\"", .string⟩ := by
    rw [StyledText.segments_eq_cutFrom]
    decide
  obtain ⟨shown, _, last⟩ := screen_ansi StyledText.assignment noEscape
  obtain ⟨segment, found, cell⟩ := shown 5 'ü' character (by decide)
  rw [contains] at found
  cases found
  exact ⟨noEscape, character, cell.trans (by decide), last⟩

end SourcePreview.Terminal
