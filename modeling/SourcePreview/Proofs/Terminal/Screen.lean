import SourcePreview.Proofs.Text.Digits

/-!
# What a terminal shows

A terminal takes what is printed apart into characters and escape sequences.  It shows the
characters one after the other, each in the style that the sequences before it have set.  Of the
sequences only those that set the display are looked at: they make the characters after them bold
or slanted, give them a colour, or put everything back.
-/

namespace SourcePreview.Terminal

/-- A piece of a printed text. -/
inductive Piece where
  /-- A character to show. -/
  | shown (character : Char)
  /-- An escape sequence, by what stands between `ESC [` and `m`. -/
  | sequence (code : List Char)
deriving DecidableEq, Repr

/-- Takes a printed text apart; `read` is what has been read of the escape sequence that has begun,
last character first.  A sequence that does not end is no sequence. -/
def piecesFrom : (read : Option (List Char)) → List Char → List Piece
  | none, [] => []
  | none, '\x1b' :: '[' :: rest => piecesFrom (some []) rest
  | none, character :: rest => .shown character :: piecesFrom none rest
  | some read, [] => ('\x1b' :: '[' :: read.reverse).map .shown
  | some read, character :: rest =>
    if character = 'm' then .sequence read.reverse :: piecesFrom none rest
    else piecesFrom (some (character :: read)) rest

/-- The character of a piece, if it is one. -/
def Piece.character? : Piece → Option Char
  | .shown character => some character
  | .sequence _ => none

/-- A printed text without its escape sequences. -/
def withoutSequences (text : String) : String :=
  String.ofList ((piecesFrom none text.toList).filterMap Piece.character?)

/-- The style that a terminal shows characters in. -/
structure Pen where
  bold : Bool
  italic : Bool
  /-- How much red, green and blue the letters have, unless they have the terminal's own colour. -/
  foreground : Option (Nat × Nat × Nat)
deriving DecidableEq, Repr

namespace Pen

/-- The style that a terminal has anyway. -/
def initial : Pen := ⟨false, false, none⟩

/-- The style after the numbers of an escape sequence. -/
def obey : List Nat → Pen → Pen
  | [], pen => pen
  | 0 :: rest, _ => obey rest initial
  | 1 :: rest, pen => obey rest { pen with bold := true }
  | 3 :: rest, pen => obey rest { pen with italic := true }
  | 38 :: 2 :: red :: green :: blue :: rest, pen =>
    obey rest { pen with foreground := some (red, green, blue) }
  | _ :: rest, pen => obey rest pen

end Pen

/-- The numbers that the code of an escape sequence consists of, zero where one is missing. -/
def numbers (code : List Char) : List Nat :=
  (code.splitOn ';').map fun digits => Nat.ofDigitChars 10 digits 0

/-- A character as it is shown. -/
structure Cell where
  character : Char
  pen : Pen
deriving DecidableEq, Repr

/-- What is shown, and the style that the terminal is left in. -/
structure Screen where
  cells : List Cell
  pen : Pen
deriving DecidableEq, Repr

/-- Shows the pieces of a printed text from a style on. -/
def draw : Pen → List Piece → Screen
  | pen, [] => ⟨[], pen⟩
  | pen, .shown character :: rest =>
    ⟨⟨character, pen⟩ :: (draw pen rest).cells, (draw pen rest).pen⟩
  | pen, .sequence code :: rest => draw (pen.obey (numbers code)) rest

/-- What a printed text looks like on a terminal. -/
def screen (text : String) : Screen :=
  draw .initial (piecesFrom none text.toList)

theorem piecesFrom_character
    {character : Char} (plain : character ≠ '\x1b') (rest : List Char) :
    piecesFrom none (character :: rest) = .shown character :: piecesFrom none rest := by
  rw [piecesFrom]
  intro later escape
  exact absurd escape plain

theorem piecesFrom_text {text : List Char} (plain : '\x1b' ∉ text) (rest : List Char) :
    piecesFrom none (text ++ rest) = text.map .shown ++ piecesFrom none rest := by
  induction text with
  | nil => rfl
  | cons character text ih =>
      rw [List.mem_cons, not_or] at plain
      rw [List.cons_append, piecesFrom_character (Ne.symm plain.1), ih plain.2, List.map_cons,
        List.cons_append]

theorem piecesFrom_code
    {code : List Char} (plain : 'm' ∉ code) (read rest : List Char) :
    piecesFrom (some read) (code ++ 'm' :: rest) =
      .sequence (read.reverse ++ code) :: piecesFrom none rest := by
  induction code generalizing read with
  | nil => rw [List.nil_append, List.append_nil, piecesFrom, if_pos rfl]
  | cons character code ih =>
      rw [List.mem_cons, not_or] at plain
      rw [List.cons_append, piecesFrom, if_neg (Ne.symm plain.1), ih plain.2, List.reverse_cons,
        List.append_assoc, List.singleton_append]

/-- Drawing goes on in the style that the first part has left the terminal in. -/
theorem draw_append (pen : Pen) (first second : List Piece) :
    draw pen (first ++ second) =
      ⟨(draw pen first).cells ++ (draw (draw pen first).pen second).cells,
        (draw (draw pen first).pen second).pen⟩ := by
  induction first generalizing pen with
  | nil => rfl
  | cons piece first ih =>
      cases piece with
      | shown character => simp only [List.cons_append, draw, ih]
      | sequence code => simp only [List.cons_append, draw, ih]

theorem draw_characters (pen : Pen) (text : List Char) :
    draw pen (text.map .shown) = ⟨text.map (⟨·, pen⟩), pen⟩ := by
  induction text with
  | nil => rfl
  | cons character text ih => rw [List.map_cons, draw, ih, List.map_cons]

/-- What is shown are the characters that are left without the sequences. -/
theorem map_character_draw (pen : Pen) (pieces : List Piece) :
    (draw pen pieces).cells.map Cell.character = pieces.filterMap Piece.character? := by
  induction pieces generalizing pen with
  | nil => rfl
  | cons piece pieces ih =>
      cases piece with
      | shown character =>
          rw [draw, List.map_cons, ih]
          rfl
      | sequence code =>
          rw [draw, ih]
          rfl

/-- Deleting the sequences leaves the characters that are shown. -/
theorem withoutSequences_eq (text : String) :
    withoutSequences text = String.ofList ((screen text).cells.map Cell.character) := by
  rw [withoutSequences, screen, map_character_draw]

/-- Numbers in decimal digits with semicolons between them, as in a code. -/
def written (numbers : List Nat) : List Char :=
  [';'].intercalate (numbers.map (Nat.toDigits 10))

@[simp]
theorem written_singleton (value : Nat) : written [value] = Nat.toDigits 10 value :=
  List.intercalate_singleton

theorem written_cons_cons (first second : Nat) (others : List Nat) :
    written (first :: second :: others) =
      Nat.toDigits 10 first ++ ';' :: written (second :: others) := by
  rw [written, List.map_cons, List.map_cons, List.intercalate_cons_cons, List.append_assoc]
  rfl

/-- Numbers are read back from their digits. -/
theorem numbers_written {values : List Nat} (nonempty : values ≠ []) :
    numbers (written values) = values := by
  have readBack : (fun digits => Nat.ofDigitChars 10 digits 0) ∘ Nat.toDigits 10 = id :=
    funext fun _ => Nat.ofDigitChars_ten_toDigits
  rw [numbers, written, List.splitOn_intercalate]
  · rw [List.map_map, readBack, List.map_id]
  · intro digits member semicolon
    obtain ⟨value, _, rfl⟩ := List.mem_map.mp member
    exact Text.forall_mem_toDigits (· ≠ ';') (by decide) (by decide) value _ semicolon rfl
  · rwa [Ne, List.map_eq_nil_iff]

theorem notMem_written (values : List Nat) : 'm' ∉ written values := by
  have digits (value : Nat) : 'm' ∉ Nat.toDigits 10 value := fun member =>
    Text.forall_mem_toDigits (· ≠ 'm') (by decide) (by decide) value _ member rfl
  match values with
  | [] => exact List.not_mem_nil
  | [value] => exact written_singleton value ▸ digits value
  | first :: second :: others =>
      rw [written_cons_cons, List.mem_append, List.mem_cons, not_or, not_or]
      exact ⟨digits first, by decide, notMem_written (second :: others)⟩

end SourcePreview.Terminal
