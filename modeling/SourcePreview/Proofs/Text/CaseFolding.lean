import SourcePreview.Pattern.Build
import SourcePreview.Proofs.Text.Utf8

/-!
# Simple case folding

Two texts are the same up to the case of their letters if they are the same once every character
is replaced by the one it folds to.  The foldings of Unicode that keep one character one character
are listed here for all scripts.  Besides the capitals of ASCII only the long s and the Kelvin sign
fold to a character of ASCII, so comparing with an ASCII character needs no more than these.
-/

namespace SourcePreview.Text

/-- Characters at equal distances that fold to as many characters at the same distances. -/
structure FoldedRange where
  /-- The first code point that is folded. -/
  first : Nat
  /-- The last code point that is folded. -/
  last : Nat
  /-- The distance between two of them. -/
  step : Nat
  /-- What the first one folds to. -/
  image : Nat

/-- What a code point folds to, if it belongs to the range. -/
def FoldedRange.image? (range : FoldedRange) (point : Nat) : Option Nat :=
  if range.first ≤ point ∧ point ≤ range.last ∧ (point - range.first) % range.step = 0 then
    some (range.image + (point - range.first))
  else none

/-- The common and the simple case foldings of the whole of Unicode. -/
def foldedRanges : List FoldedRange :=
  [
    ⟨65, 90, 1, 97⟩, ⟨181, 181, 1, 956⟩, ⟨192, 214, 1, 224⟩, ⟨216, 222, 1, 248⟩,
    ⟨256, 302, 2, 257⟩, ⟨306, 310, 2, 307⟩, ⟨313, 327, 2, 314⟩, ⟨330, 374, 2, 331⟩,
    ⟨376, 376, 1, 255⟩, ⟨377, 381, 2, 378⟩, ⟨383, 383, 1, 115⟩, ⟨385, 385, 1, 595⟩,
    ⟨386, 388, 2, 387⟩, ⟨390, 390, 1, 596⟩, ⟨391, 391, 1, 392⟩, ⟨393, 394, 1, 598⟩,
    ⟨395, 395, 1, 396⟩, ⟨398, 398, 1, 477⟩, ⟨399, 399, 1, 601⟩, ⟨400, 400, 1, 603⟩,
    ⟨401, 401, 1, 402⟩, ⟨403, 403, 1, 608⟩, ⟨404, 404, 1, 611⟩, ⟨406, 406, 1, 617⟩,
    ⟨407, 407, 1, 616⟩, ⟨408, 408, 1, 409⟩, ⟨412, 412, 1, 623⟩, ⟨413, 413, 1, 626⟩,
    ⟨415, 415, 1, 629⟩, ⟨416, 420, 2, 417⟩, ⟨422, 422, 1, 640⟩, ⟨423, 423, 1, 424⟩,
    ⟨425, 425, 1, 643⟩, ⟨428, 428, 1, 429⟩, ⟨430, 430, 1, 648⟩, ⟨431, 431, 1, 432⟩,
    ⟨433, 434, 1, 650⟩, ⟨435, 437, 2, 436⟩, ⟨439, 439, 1, 658⟩, ⟨440, 440, 1, 441⟩,
    ⟨444, 444, 1, 445⟩, ⟨452, 452, 1, 454⟩, ⟨453, 453, 1, 454⟩, ⟨455, 455, 1, 457⟩,
    ⟨456, 456, 1, 457⟩, ⟨458, 458, 1, 460⟩, ⟨459, 475, 2, 460⟩, ⟨478, 494, 2, 479⟩,
    ⟨497, 497, 1, 499⟩, ⟨498, 500, 2, 499⟩, ⟨502, 502, 1, 405⟩, ⟨503, 503, 1, 447⟩,
    ⟨504, 542, 2, 505⟩, ⟨544, 544, 1, 414⟩, ⟨546, 562, 2, 547⟩, ⟨570, 570, 1, 11365⟩,
    ⟨571, 571, 1, 572⟩, ⟨573, 573, 1, 410⟩, ⟨574, 574, 1, 11366⟩, ⟨577, 577, 1, 578⟩,
    ⟨579, 579, 1, 384⟩, ⟨580, 580, 1, 649⟩, ⟨581, 581, 1, 652⟩, ⟨582, 590, 2, 583⟩,
    ⟨837, 837, 1, 953⟩, ⟨880, 882, 2, 881⟩, ⟨886, 886, 1, 887⟩, ⟨895, 895, 1, 1011⟩,
    ⟨902, 902, 1, 940⟩, ⟨904, 906, 1, 941⟩, ⟨908, 908, 1, 972⟩, ⟨910, 911, 1, 973⟩,
    ⟨913, 929, 1, 945⟩, ⟨931, 939, 1, 963⟩, ⟨962, 962, 1, 963⟩, ⟨975, 975, 1, 983⟩,
    ⟨976, 976, 1, 946⟩, ⟨977, 977, 1, 952⟩, ⟨981, 981, 1, 966⟩, ⟨982, 982, 1, 960⟩,
    ⟨984, 1006, 2, 985⟩, ⟨1008, 1008, 1, 954⟩, ⟨1009, 1009, 1, 961⟩, ⟨1012, 1012, 1, 952⟩,
    ⟨1013, 1013, 1, 949⟩, ⟨1015, 1015, 1, 1016⟩, ⟨1017, 1017, 1, 1010⟩, ⟨1018, 1018, 1, 1019⟩,
    ⟨1021, 1023, 1, 891⟩, ⟨1024, 1039, 1, 1104⟩, ⟨1040, 1071, 1, 1072⟩, ⟨1120, 1152, 2, 1121⟩,
    ⟨1162, 1214, 2, 1163⟩, ⟨1216, 1216, 1, 1231⟩, ⟨1217, 1229, 2, 1218⟩, ⟨1232, 1326, 2, 1233⟩,
    ⟨1329, 1366, 1, 1377⟩, ⟨4256, 4293, 1, 11520⟩, ⟨4295, 4295, 1, 11559⟩, ⟨4301, 4301, 1, 11565⟩,
    ⟨5112, 5117, 1, 5104⟩, ⟨7296, 7296, 1, 1074⟩, ⟨7297, 7297, 1, 1076⟩, ⟨7298, 7298, 1, 1086⟩,
    ⟨7299, 7300, 1, 1089⟩, ⟨7301, 7301, 1, 1090⟩, ⟨7302, 7302, 1, 1098⟩, ⟨7303, 7303, 1, 1123⟩,
    ⟨7304, 7304, 1, 42571⟩, ⟨7305, 7305, 1, 7306⟩, ⟨7312, 7354, 1, 4304⟩, ⟨7357, 7359, 1, 4349⟩,
    ⟨7680, 7828, 2, 7681⟩, ⟨7835, 7835, 1, 7777⟩, ⟨7838, 7838, 1, 223⟩, ⟨7840, 7934, 2, 7841⟩,
    ⟨7944, 7951, 1, 7936⟩, ⟨7960, 7965, 1, 7952⟩, ⟨7976, 7983, 1, 7968⟩, ⟨7992, 7999, 1, 7984⟩,
    ⟨8008, 8013, 1, 8000⟩, ⟨8025, 8031, 2, 8017⟩, ⟨8040, 8047, 1, 8032⟩, ⟨8072, 8079, 1, 8064⟩,
    ⟨8088, 8095, 1, 8080⟩, ⟨8104, 8111, 1, 8096⟩, ⟨8120, 8121, 1, 8112⟩, ⟨8122, 8123, 1, 8048⟩,
    ⟨8124, 8124, 1, 8115⟩, ⟨8126, 8126, 1, 953⟩, ⟨8136, 8139, 1, 8050⟩, ⟨8140, 8140, 1, 8131⟩,
    ⟨8147, 8147, 1, 912⟩, ⟨8152, 8153, 1, 8144⟩, ⟨8154, 8155, 1, 8054⟩, ⟨8163, 8163, 1, 944⟩,
    ⟨8168, 8169, 1, 8160⟩, ⟨8170, 8171, 1, 8058⟩, ⟨8172, 8172, 1, 8165⟩, ⟨8184, 8185, 1, 8056⟩,
    ⟨8186, 8187, 1, 8060⟩, ⟨8188, 8188, 1, 8179⟩, ⟨8486, 8486, 1, 969⟩, ⟨8490, 8490, 1, 107⟩,
    ⟨8491, 8491, 1, 229⟩, ⟨8498, 8498, 1, 8526⟩, ⟨8544, 8559, 1, 8560⟩, ⟨8579, 8579, 1, 8580⟩,
    ⟨9398, 9423, 1, 9424⟩, ⟨11264, 11311, 1, 11312⟩, ⟨11360, 11360, 1, 11361⟩,
    ⟨11362, 11362, 1, 619⟩, ⟨11363, 11363, 1, 7549⟩, ⟨11364, 11364, 1, 637⟩,
    ⟨11367, 11371, 2, 11368⟩, ⟨11373, 11373, 1, 593⟩, ⟨11374, 11374, 1, 625⟩,
    ⟨11375, 11375, 1, 592⟩, ⟨11376, 11376, 1, 594⟩, ⟨11378, 11378, 1, 11379⟩,
    ⟨11381, 11381, 1, 11382⟩, ⟨11390, 11391, 1, 575⟩, ⟨11392, 11490, 2, 11393⟩,
    ⟨11499, 11501, 2, 11500⟩, ⟨11506, 11506, 1, 11507⟩, ⟨42560, 42604, 2, 42561⟩,
    ⟨42624, 42650, 2, 42625⟩, ⟨42786, 42798, 2, 42787⟩, ⟨42802, 42862, 2, 42803⟩,
    ⟨42873, 42875, 2, 42874⟩, ⟨42877, 42877, 1, 7545⟩, ⟨42878, 42886, 2, 42879⟩,
    ⟨42891, 42891, 1, 42892⟩, ⟨42893, 42893, 1, 613⟩, ⟨42896, 42898, 2, 42897⟩,
    ⟨42902, 42920, 2, 42903⟩, ⟨42922, 42922, 1, 614⟩, ⟨42923, 42923, 1, 604⟩,
    ⟨42924, 42924, 1, 609⟩, ⟨42925, 42925, 1, 620⟩, ⟨42926, 42926, 1, 618⟩,
    ⟨42928, 42928, 1, 670⟩, ⟨42929, 42929, 1, 647⟩, ⟨42930, 42930, 1, 669⟩,
    ⟨42931, 42931, 1, 43859⟩, ⟨42932, 42946, 2, 42933⟩, ⟨42948, 42948, 1, 42900⟩,
    ⟨42949, 42949, 1, 642⟩, ⟨42950, 42950, 1, 7566⟩, ⟨42951, 42953, 2, 42952⟩,
    ⟨42955, 42955, 1, 612⟩, ⟨42956, 42956, 1, 42957⟩, ⟨42960, 42960, 1, 42961⟩,
    ⟨42966, 42970, 2, 42967⟩, ⟨42972, 42972, 1, 411⟩, ⟨42997, 42997, 1, 42998⟩,
    ⟨43888, 43967, 1, 5024⟩, ⟨64261, 64261, 1, 64262⟩, ⟨65313, 65338, 1, 65345⟩,
    ⟨66560, 66599, 1, 66600⟩, ⟨66736, 66771, 1, 66776⟩, ⟨66928, 66938, 1, 66967⟩,
    ⟨66940, 66954, 1, 66979⟩, ⟨66956, 66962, 1, 66995⟩, ⟨66964, 66965, 1, 67003⟩,
    ⟨68736, 68786, 1, 68800⟩, ⟨68944, 68965, 1, 68976⟩, ⟨71840, 71871, 1, 71872⟩,
    ⟨93760, 93791, 1, 93792⟩, ⟨125184, 125217, 1, 125218⟩
  ]

/-- The character that a character folds to, which for most is itself. -/
def simpleFold (character : Char) : Char :=
  match foldedRanges.findSome? fun range => range.image? character.toNat with
  | some point => Char.ofNat point
  | none => character

/-- A property of all ASCII characters, by their code points. -/
theorem forall_ascii
    (property : Char → Prop) (byPoint : ∀ point < 128, property (Char.ofNat point))
    {character : Char} (ascii : character.toNat < 128) :
    property character :=
  Char.ofNat_toNat character ▸ byPoint character.toNat ascii

/-- Only the first range reaches into ASCII. -/
theorem findSome?_image?_of_lt {point : Nat} (ascii : point < 128) :
    (foldedRanges.findSome? fun range => range.image? point) =
      FoldedRange.image? ⟨65, 90, 1, 97⟩ point := by
  have behind : ∀ range ∈ foldedRanges.tail, 128 ≤ range.first := by decide +kernel
  have others : (foldedRanges.tail.findSome? fun range => range.image? point) = none := by
    rw [List.findSome?_eq_none_iff]
    intro range member
    have first := behind range member
    exact if_neg (by omega)
  change (⟨65, 90, 1, 97⟩ :: foldedRanges.tail).findSome? (fun range => range.image? point) = _
  rw [List.findSome?_cons, others]
  cases FoldedRange.image? ⟨65, 90, 1, 97⟩ point <;> rfl

/-- In ASCII, folding makes capitals small. -/
theorem simpleFold_of_ascii {character : Char} (ascii : character.toNat < 128) :
    simpleFold character = character.toLower := by
  rw [simpleFold, findSome?_image?_of_lt ascii]
  exact forall_ascii
    (fun character =>
      (match FoldedRange.image? ⟨65, 90, 1, 97⟩ character.toNat with
        | some point => Char.ofNat point
        | none => character) = character.toLower)
    (by decide) ascii

/-- What is folded is ASCII, or the long s, or the Kelvin sign, or has a folding beyond ASCII. -/
theorem beyond_ascii_of_mem_foldedRanges :
    ∀ range ∈ foldedRanges,
      range.last < 128 ∨
        (range.first = range.last ∧
          (range.first = '\u017f'.toNat ∨ range.first = '\u212a'.toNat)) ∨
        128 ≤ range.image ∧
          (range.image + (range.last - range.first) < 0xD800 ∨
            0xDFFF < range.image ∧ range.image + (range.last - range.first) < 0x110000) := by
  decide +kernel

/-- Only two characters beyond ASCII fold to a character of ASCII. -/
theorem le_toNat_simpleFold
    {character : Char} (beyond : 128 ≤ character.toNat)
    (notLongS : character ≠ '\u017f') (notKelvin : character ≠ '\u212a') :
    128 ≤ (simpleFold character).toNat := by
  rw [simpleFold]
  split
  · next point found =>
      obtain ⟨range, member, image⟩ := List.exists_of_findSome?_eq_some found
      rw [FoldedRange.image?] at image
      split at image
      · next inside =>
          cases image
          have apart (other : Char) (different : character ≠ other) :
              character.toNat ≠ other.toNat := fun same => different (Char.toNat_inj.mp same)
          have notLongS := apart _ notLongS
          have notKelvin := apart _ notKelvin
          rcases beyond_ascii_of_mem_foldedRanges range member with
            small | ⟨single, isLongS | isKelvin⟩ | ⟨large, valid⟩
          · omega
          · omega
          · omega
          · have isValid : (range.image + (character.toNat - range.first)).isValidChar := by
              rw [Nat.isValidChar]
              omega
            have value := toNat_val_ofNat isValid
            rw [Char.toNat, value]
            omega
      · cases image
  · exact beyond

end SourcePreview.Text

namespace SourcePreview.CharTest

open Text

theorem toLower_of_beyond_ascii {character : Char} (beyond : 128 ≤ character.toNat) :
    character.toLower = character := by
  have value : character.val.toNat = character.toNat := rfl
  have last : 'Z'.val.toNat = 90 := rfl
  refine dif_neg ?_
  rintro ⟨_, upTo⟩
  rw [UInt32.le_iff_toNat_le] at upTo
  omega

theorem toNat_toLower_lt {wanted : Char} (ascii : wanted.toNat < 128) :
    wanted.toLower.toNat < 128 :=
  forall_ascii (fun wanted => wanted.toLower.toNat < 128) (by decide) ascii

/-- Comparing with an ASCII character up to case is comparing what the characters fold to. -/
theorem folded_iff_simpleFold_eq
    {wanted : Char} (ascii : wanted.toNat < 128) (character : Char) :
    folded wanted character = true ↔ simpleFold character = simpleFold wanted := by
  have small := toNat_toLower_lt ascii
  have apart {other : Char} (beyond : 128 ≤ other.toNat) : other ≠ wanted.toLower := by
    rintro rfl
    omega
  rw [simpleFold_of_ascii ascii, folded]
  simp only [Bool.or_eq_true, Bool.and_eq_true, beq_iff_eq]
  rcases Nat.lt_or_ge character.toNat 128 with within | beyond
  · have notLongS : character ≠ '\u017f' := by
      rintro rfl
      exact absurd within (by decide)
    have notKelvin : character ≠ '\u212a' := by
      rintro rfl
      exact absurd within (by decide)
    simp [simpleFold_of_ascii within, notLongS, notKelvin]
  · rw [toLower_of_beyond_ascii beyond]
    by_cases isLongS : character = '\u017f'
    · have image : simpleFold '\u017f' = 's' := by decide +kernel
      subst isLongS
      simp [image, apart beyond, eq_comm]
    · by_cases isKelvin : character = '\u212a'
      · have image : simpleFold '\u212a' = 'k' := by decide +kernel
        subst isKelvin
        simp [image, apart beyond, eq_comm]
      · have different := apart (le_toNat_simpleFold beyond isLongS isKelvin)
        simp [apart beyond, isLongS, isKelvin, different]

/-- What is an ASCII word character up to case is a word character. -/
theorem isWordChar_of_folded
    {wanted character : Char} (ascii : wanted.toNat < 128) (isWord : isWordChar wanted = true)
    (passes : folded wanted character = true) :
    isWordChar character = true := by
  have ofLower {other : Char} (ascii : other.toNat < 128) :
      isWordChar other.toLower = isWordChar other :=
    forall_ascii (fun other => isWordChar other.toLower = isWordChar other) (by decide) ascii
  rw [folded] at passes
  simp only [Bool.or_eq_true, Bool.and_eq_true, beq_iff_eq] at passes
  rcases passes with (same | ⟨_, rfl⟩) | ⟨_, rfl⟩
  · have within : character.toNat < 128 := by
      by_contra beyond
      have small := toNat_toLower_lt ascii
      rw [← same, toLower_of_beyond_ascii (by omega)] at small
      omega
    rw [← ofLower within, same, ofLower ascii, isWord]
  · decide +kernel
  · decide +kernel

end SourcePreview.CharTest
