import SourcePreview.Language.Detect
import SourcePreview.Proofs.Text.Beginnings
import SourcePreview.Proofs.Text.Words

/-!
# First lines that call an interpreter

A first line calls an interpreter by a word that names it: a directory that may be missing, a name
of the table and a version that may be missing.  The word is the first of the line, or it is the
first one behind `env` that is no flag.  Whatever else the line holds, the text then has the
language of the table.
-/

namespace SourcePreview.Language

open Text

/-- What can stand in front of a name in one word: nothing or a path that ends in a slash. -/
structure IsDirectory (directory : List Char) : Prop where
  visible : AreVisible directory
  ends : directory = [] ∨ directory.getLast? = some '/'

/-- Digits and dots. -/
def IsVersion (version : List Char) : Prop :=
  ∀ character ∈ version, character.isDigit = true ∨ character = '.'

instance (version : List Char) : Decidable (IsVersion version) :=
  List.decidableBAll _ version

/-- A name that does not end like a version. -/
def IsBare (name : List Char) : Prop :=
  name.getLast?.all (fun character => !(character.isDigit || character == '.')) = true

instance (name : List Char) : Decidable (IsBare name) :=
  inferInstanceAs (Decidable (_ = true))

/-- A word that names an interpreter of the table. -/
inductive Names (language : Language) : (word : List Char) → Prop
  | intro {directory version : List Char} {name : String}
      (isDirectory : IsDirectory directory) (listed : (name, language) ∈ interpreters)
      (isVersion : IsVersion version) :
      Names language (directory ++ name.toList ++ version)

/-- Words that start with a hyphen, each with blank space behind it. -/
inductive Flags : (text : List Char) → Prop
  | nil : Flags []
  | cons {flag gap flags : List Char}
      (isWord : IsWord ('-' :: flag)) (isGap : IsGap gap) (apart : gap ≠ [])
      (more : Flags flags) :
      Flags ('-' :: flag ++ gap ++ flags)

/-- What stands behind the mark of a first line that calls an interpreter. -/
inductive Calls (language : Language) : (line : List Char) → Prop
  | direct {lead word tail : List Char}
      (isLead : IsGap lead) (names : Names language word) (isTail : IsTail tail) :
      Calls language (lead ++ word ++ tail)
  | env {lead directory gap flags word tail : List Char}
      (isLead : IsGap lead) (isDirectory : IsDirectory directory)
      (isGap : IsGap gap) (apart : gap ≠ []) (areFlags : Flags flags)
      (names : Names language word) (noFlag : word.head? ≠ some '-') (isTail : IsTail tail) :
      Calls language
        (lead ++ (directory ++ "env".toList) ++ (gap ++ flags ++ word ++ tail))

/-- The names of the table are words without a slash that do not end like a version, and none of
them is `env`. -/
theorem listed_facts :
    ∀ entry ∈ interpreters,
      (entry.1.toList ≠ [] ∧ AreVisible entry.1.toList) ∧
        '/' ∉ entry.1.toList ∧ entry.1.toList ≠ "env".toList ∧ IsBare entry.1.toList := by
  decide +kernel

/-- No name stands in the table twice. -/
theorem lookup_of_mem :
    ∀ entry ∈ interpreters, interpreters.lookup entry.1 = some entry.2 := by
  decide +kernel

theorem mem_of_lookup {name : String} {language : Language}
    (found : interpreters.lookup name = some language) :
    (name, language) ∈ interpreters := by
  obtain ⟨before, after, parts, -⟩ := List.lookup_eq_some_iff.mp found
  rw [parts]
  simp

/-- Leaving out the digits and dots at the end leaves the name in front of the version. -/
theorem reverse_dropWhile_version
    {name version : List Char} (isVersion : IsVersion version)
    (isBare : IsBare name) :
    ((name ++ version).reverse.dropWhile
      fun character => character.isDigit || character == '.').reverse = name := by
  have dropped :
      ∀ character ∈ version.reverse, (character.isDigit || character == '.') = true := by
    intro character isMember
    simpa using isVersion character (List.mem_reverse.mp isMember)
  rw [List.reverse_append, List.dropWhile_append_of_pos dropped]
  rcases List.eq_nil_or_concat' name with rfl | ⟨first, last, rfl⟩
  · rfl
  · have kept : (last.isDigit || last == '.') = false := by
      simpa [IsBare] using isBare
    rw [List.reverse_append, List.reverse_singleton, List.singleton_append,
      List.dropWhile_cons_of_neg (by simp [kept])]
    simp

/-- An interpreter of the table is found with any version. -/
theorem ofInterpreter?_of_listed
    {name : String} {language : Language} {version : List Char}
    (listed : (name, language) ∈ interpreters) (isVersion : IsVersion version) :
    ofInterpreter? (String.ofList (name.toList ++ version)) = some language := by
  obtain ⟨-, -, -, isBare⟩ := listed_facts _ listed
  have bare := reverse_dropWhile_version isVersion isBare
  have ofBare : interpreters.lookup name = some language := lookup_of_mem _ listed
  simp only [ofInterpreter?, String.toList_ofList]
  rw [bare, String.ofList_toList, ofBare]
  cases found : interpreters.lookup (String.ofList (name.toList ++ version)) with
  | none => rfl
  | some other =>
      -- What the table lists does not end like a version, so there is none.
      obtain ⟨-, -, -, isBareToo⟩ := listed_facts _ (mem_of_lookup found)
      rw [String.toList_ofList] at isBareToo
      have noVersion : IsVersion [] := fun _ isMember => nomatch isMember
      have whole := reverse_dropWhile_version noVersion isBareToo
      rw [List.append_nil, bare] at whole
      rw [← whole, String.ofList_toList, ofBare] at found
      rw [Option.some_or, found]

/-- What comes behind the directory of a word has no slash if the name has none. -/
theorem afterLastSlash_append
    {directory name : List Char}
    (isDirectory : IsDirectory directory) (plain : '/' ∉ name) :
    afterLastSlash (directory ++ name) = name := by
  have taken : ∀ character ∈ name.reverse, (character != '/') = true := by
    intro character isMember
    have different : character ≠ '/' := by
      rintro rfl
      exact plain (List.mem_reverse.mp isMember)
    simpa using different
  rw [afterLastSlash, List.reverse_append, List.takeWhile_append_of_pos taken]
  rcases isDirectory.ends with rfl | slash
  · simp
  · obtain ⟨path, rfl⟩ := List.getLast?_eq_some_iff.mp slash
    simp

theorem IsVersion.visible {version : List Char} (isVersion : IsVersion version) :
    AreVisible version := by
  intro character isMember
  rcases isVersion character isMember with isDigit | rfl
  · obtain ⟨least, greatest⟩ := Char.isDigit_iff_toNat.mp isDigit
    have apart : 48 ≤ character.toNat ∧ character.toNat ≤ 57 := ⟨least, greatest⟩
    simp only [isBlank, Bool.or_eq_false_iff, Bool.and_eq_false_iff, decide_eq_false_iff_not,
      beq_eq_false_iff_ne]
    omega
  · decide

theorem IsVersion.slash_notMem {version : List Char} (isVersion : IsVersion version) :
    '/' ∉ version := by
  intro isMember
  have digitOrDot := isVersion _ isMember
  revert digitOrDot
  decide

namespace Names

variable {language : Language} {word : List Char}

theorem isWord (names : Names language word) : IsWord word := by
  obtain ⟨isDirectory, listed, isVersion⟩ := names
  obtain ⟨⟨nonempty, visible⟩, -⟩ := listed_facts _ listed
  refine ⟨by simp [nonempty], fun character isMember => ?_⟩
  rcases List.mem_append.mp isMember with isMember | inVersion
  · rcases List.mem_append.mp isMember with inDirectory | inName
    · exact isDirectory.visible character inDirectory
    · exact visible character inName
  · exact isVersion.visible character inVersion

/-- What is behind the last slash of the word is looked up, and it is not `env`. -/
theorem looksUp (names : Names language word) :
    afterLastSlash word ≠ "env".toList ∧
      ofInterpreter? (String.ofList (afterLastSlash word)) = some language := by
  obtain @⟨directory, version, name, isDirectory, listed, isVersion⟩ := names
  obtain ⟨-, plain, notEnv, isBare⟩ := listed_facts _ listed
  have plainName : '/' ∉ name.toList ++ version := by
    rw [List.mem_append, not_or]
    exact ⟨plain, isVersion.slash_notMem⟩
  rw [List.append_assoc, afterLastSlash_append isDirectory plainName]
  refine ⟨fun isEnv => notEnv ?_, ofInterpreter?_of_listed listed isVersion⟩
  have bare := reverse_dropWhile_version isVersion isBare
  rw [isEnv] at bare
  exact bare.symm.trans (by decide)

end Names

/-- Flags are words that are skipped, whatever comes behind them. -/
theorem Flags.exists_words {flags : List Char} (areFlags : Flags flags) :
    ∃ words : List (List Char),
      (∀ word ∈ words, word.head? = some '-') ∧
        ∀ rest, blankSeparatedWords (flags ++ rest) = words ++ blankSeparatedWords rest := by
  induction areFlags with
  | nil => exact ⟨[], by simp, fun rest => rfl⟩
  | @cons flag gap flags isWord isGap apart more ih =>
      obtain ⟨words, areFlags, found⟩ := ih
      refine ⟨('-' :: flag) :: words, ?_, fun rest => ?_⟩
      · intro word isMember
        rcases List.mem_cons.mp isMember with rfl | isMember
        · rfl
        · exact areFlags word isMember
      · rw [List.append_assoc, List.append_assoc,
          blankSeparatedWords_word_append isWord (isGap.apart apart _),
          blankSeparatedWords_gap_append isGap, found, List.cons_append]

theorem Flags.oneLine {flags : List Char} (areFlags : Flags flags) : '\n' ∉ flags := by
  induction areFlags with
  | nil => exact List.not_mem_nil
  | cons isWord isGap apart more ih =>
      rw [List.mem_append, List.mem_append, not_or, not_or]
      exact ⟨⟨isWord.oneLine, isGap.oneLine⟩, ih⟩

theorem isWord_env {directory : List Char} (isDirectory : IsDirectory directory) :
    IsWord (directory ++ "env".toList) := by
  have name : AreVisible "env".toList := by decide
  refine ⟨by simp, fun character isMember => ?_⟩
  rcases List.mem_append.mp isMember with inDirectory | inName
  · exact isDirectory.visible character inDirectory
  · exact name character inName

namespace Calls

variable {language : Language} {line : List Char}

theorem nonempty (calls : Calls language line) : line ≠ [] := by
  cases calls with
  | direct isLead names isTail => simp [names.isWord.nonempty]
  | env isLead isDirectory isGap apart areFlags names noFlag isTail => simp

theorem oneLine (calls : Calls language line) : '\n' ∉ line := by
  cases calls with
  | direct isLead names isTail =>
      simp only [List.mem_append, not_or]
      exact ⟨⟨isLead.oneLine, names.isWord.oneLine⟩, isTail.oneLine⟩
  | env isLead isDirectory isGap apart areFlags names noFlag isTail =>
      have program := (isWord_env isDirectory).oneLine
      simp only [List.mem_append, not_or] at program ⊢
      exact
        ⟨⟨isLead.oneLine, program⟩,
          ⟨⟨isGap.oneLine, areFlags.oneLine⟩, names.isWord.oneLine⟩, isTail.oneLine⟩

/-- The word that is found in the line is looked up with success. -/
theorem exists_interpreterWord (calls : Calls language line) :
    ∃ name,
      interpreterWord? (blankSeparatedWords line) = some name ∧
        ofInterpreter? (String.ofList name) = some language := by
  cases calls with
  | @direct lead word tail isLead names isTail =>
      obtain ⟨notEnv, found⟩ := names.looksUp
      refine ⟨afterLastSlash word, ?_, found⟩
      rw [List.append_assoc, blankSeparatedWords_gap_append isLead,
        blankSeparatedWords_word_append names.isWord isTail.apart, interpreterWord?]
      exact if_neg notEnv
  | @env lead directory gap flags word tail isLead isDirectory isGap apart areFlags names noFlag
      isTail =>
      obtain ⟨-, found⟩ := names.looksUp
      obtain ⟨words, skipped, areWords⟩ := areFlags.exists_words
      refine ⟨afterLastSlash word, ?_, found⟩
      have isEnv : afterLastSlash (directory ++ "env".toList) = "env".toList :=
        afterLastSlash_append isDirectory (by decide)
      have firstNoFlag (others : List (List Char)) :
          (words ++ word :: others).find? (fun word => word.head? != some '-') = some word := by
        have none : words.find? (fun word => word.head? != some '-') = none :=
          List.find?_eq_none.mpr fun word isMember => by simp [skipped word isMember]
        rw [List.find?_append, none, Option.none_or,
          List.find?_cons_of_pos (by simpa using noFlag)]
      rw [List.append_assoc, blankSeparatedWords_gap_append isLead, List.append_assoc gap,
        List.append_assoc gap,
        blankSeparatedWords_word_append (isWord_env isDirectory) (isGap.apart apart _),
        blankSeparatedWords_gap_append isGap, List.append_assoc flags, areWords,
        blankSeparatedWords_word_append names.isWord isTail.apart]
      simp only [interpreterWord?, isEnv, if_pos, firstNoFlag, Option.map_some]

end Calls

/-- A text whose first line calls an interpreter of the table has the language of the table, as long
as the line behind its mark has at most 256 bytes. -/
theorem ofShebang?_eq_some_of_calls
    {language : Language} {line rest : List Char} (calls : Calls language line)
    (short : byteLength line ≤ 256) (ends : EndsLine rest) :
    ofShebang? (String.ofList ("#!".toList ++ line ++ rest)) = some language := by
  obtain ⟨beginning, found, isLongest⟩ :=
    exists_beginning? shebangBytes (String.ofList (line ++ rest))
  rw [String.toList_ofList] at isLongest
  obtain ⟨more, parts⟩ := isLongest.longest line (List.prefix_append line rest) short
  have moreBegins : more <+: rest := by
    have begins := isLongest.isBeginning
    rwa [← parts, List.prefix_append_right_inj] at begins
  obtain ⟨first, isFirst, sameWords⟩ :=
    exists_head?_lines calls.nonempty calls.oneLine ends moreBegins
  obtain ⟨name, isName, isLanguage⟩ := calls.exists_interpreterWord
  have marked :
      (String.ofList ("#!".toList ++ line ++ rest)).toList = '#' :: '!' :: (line ++ rest) := by
    rw [String.toList_ofList, List.append_assoc]
    rfl
  simp only [ofShebang?, marked, ofCall?, found, Option.bind_eq_bind, Option.bind_some, ← parts,
    isFirst, sameWords, isName, isLanguage]

/-- A line that calls an interpreter by way of `env`, with a flag, a version and an argument. -/
def sampleLine : List Char :=
  " /usr/bin/env -S  /opt/bin/python3.11 -u".toList

theorem calls_sampleLine : Calls .python sampleLine := by
  have isDirectory : IsDirectory "/usr/bin/".toList := ⟨by decide, .inr (by decide)⟩
  have areFlags : Flags ('-' :: "S".toList ++ "  ".toList ++ []) :=
    .cons ⟨by decide, by decide⟩ (by decide) (by decide) .nil
  have names : Names .python ("/opt/bin/".toList ++ "python".toList ++ "3.11".toList) :=
    .intro ⟨by decide, .inr (by decide)⟩ (by decide) (by decide)
  have parts :
      sampleLine =
        " ".toList ++ ("/usr/bin/".toList ++ "env".toList) ++
          (" ".toList ++ ('-' :: "S".toList ++ "  ".toList ++ []) ++
            ("/opt/bin/".toList ++ "python".toList ++ "3.11".toList) ++ " -u".toList) := by
    decide
  have isTail : IsTail " -u".toList := ⟨by rintro _ ⟨⟩; rfl, by decide⟩
  rw [parts]
  exact
    .env (by decide) isDirectory (by decide) (by decide) areFlags names (by decide) isTail

/-- The line is found in a script. -/
theorem ofShebang?_eq_some_of_calls_sample :
    Calls .python sampleLine ∧
      ofShebang? (String.ofList ("#!".toList ++ sampleLine ++ "\r\nprint()".toList)) =
        some .python := by
  have ends : EndsLine "\r\nprint()".toList := .inr (.inr ⟨"print()".toList, by decide⟩)
  exact ⟨calls_sampleLine, ofShebang?_eq_some_of_calls calls_sampleLine (by decide) ends⟩

end SourcePreview.Language
