import SourcePreview.Proofs.Theme.Colors
import SourcePreview.Proofs.Yaml.Members
import SourcePreview.Theme.Parse

/-!
# From theme documents to palettes

A record is read as a theme document, and the colours of the document are read one after the other.
The main statement follows every token class through both steps: the style in the palette is the one
that the record gives under the name of the class, or else an upright one in the colour of the text,
and what is reported of a document without a palette is the first of its texts that is no colour.
-/

namespace SourcePreview

/-- Values that are listed with what they give are looked up. -/
theorem exists_lookup_of_mapM
    {α β : Type} [BEq α] [LawfulBEq α] {give? : α → Option β} {values : List α}
    {given : List (α × β)}
    (gives :
      values.mapM (fun value => (give? value).map fun result => (value, result)) = some given)
    {value : α} (member : value ∈ values) :
    ∃ result, give? value = some result ∧ given.lookup value = some result := by
  induction values generalizing given with
  | nil => cases member
  | cons first values ih =>
      simp only [List.mapM_cons, Option.bind_eq_bind, Option.bind_eq_some_iff,
        Option.map_eq_some_iff] at gives
      obtain ⟨_, ⟨result, isResult, rfl⟩, others, giveOthers, ⟨⟩⟩ := gives
      by_cases same : value = first
      · subst same
        exact ⟨result, isResult, List.lookup_cons_self⟩
      · rw [List.lookup_cons, beq_false_of_ne same]
        exact ih giveOthers ((List.mem_cons.mp member).resolve_left same)

/-! ### What a record says -/

/-- Whether a record says how the tokens of a class look. -/
structure StyleDocument.IsReadFrom (style : StyleDocument) (yaml : Yaml.Document)
    (node : Yaml.Node) : Prop where
  color : yaml.HasText node "color" style.color
  bold : yaml.HasFlag node "bold" style.bold
  italic : yaml.HasFlag node "italic" style.italic

/-- The value that a theme record has for a token class: what the record of tokens has under the
name of the class. -/
def tokenNode? (yaml : Yaml.Document) (node : Yaml.Node) (tokenClass : TokenClass) :
    Option Yaml.Node :=
  (yaml.memberNode? node "tokens").bind (yaml.memberNode? · tokenClass.name)

/-- Whether a theme record gives a token class a style, or none: then there is no value for the
class, or one that says that there is nothing. -/
def GivesStyle (yaml : Yaml.Document) (node : Yaml.Node) (tokenClass : TokenClass) :
    Option StyleDocument → Prop
  | some style => ∃ value, tokenNode? yaml node tokenClass = some value ∧
      style.IsReadFrom yaml value
  | none => ∀ value, tokenNode? yaml node tokenClass = some value → yaml.IsNothing value

/-- Whether a record says what a theme document holds. -/
structure ThemeDocument.IsReadFrom (document : ThemeDocument) (yaml : Yaml.Document)
    (node : Yaml.Node) : Prop where
  name : yaml.HasText node "name" document.name
  background : yaml.HasText node "background" document.background
  foreground : yaml.HasText node "foreground" document.foreground
  tokens : ∀ tokenClass, GivesStyle yaml node tokenClass (document.tokens tokenClass)

theorem StyleDocument.isReadFrom
    {style : StyleDocument} {yaml : Yaml.Document} {node : Yaml.Node}
    (reads : StyleDocument.ofNode? yaml node = some style) :
    style.IsReadFrom yaml node := by
  simp only [StyleDocument.ofNode?, Option.bind_eq_bind, Option.bind_eq_some_iff] at reads
  obtain ⟨members, isMembers, color, hasColor, bold, hasBold, italic, hasItalic, ⟨⟩⟩ := reads
  exact
    ⟨Yaml.Document.exists_memberNode?_of_required? isMembers hasColor,
      Yaml.Document.hasFlag_of_orDefault? isMembers hasBold,
      Yaml.Document.hasFlag_of_orDefault? isMembers hasItalic⟩

namespace ThemeDocument

/-- The styles have the names of their token classes as keys. -/
theorem styleKey_eq_name (tokenClass : TokenClass) : styleKey tokenClass = tokenClass.name := by
  cases tokenClass <;> rfl

/-- A record of tokens is read under the names of the token classes. -/
theorem cases_of_tokensOfNode?
    {yaml : Yaml.Document} {node : Yaml.Node} {tokens : TokenClass → Option StyleDocument}
    (reads : tokensOfNode? yaml node = some tokens) (tokenClass : TokenClass) :
    (∃ value,
        yaml.memberNode? node tokenClass.name = some value ∧
          Yaml.Document.optional? StyleDocument.ofNode? yaml value = some (tokens tokenClass)) ∨
      yaml.memberNode? node tokenClass.name = none ∧ tokens tokenClass = none := by
  simp only [tokensOfNode?, Option.bind_eq_bind, Option.bind_eq_some_iff] at reads
  obtain ⟨members, isMembers, styles, givesStyles, ⟨⟩⟩ := reads
  have listed : tokenClass ∈ TokenClass.all := by cases tokenClass <;> decide
  obtain ⟨style, isStyle, found⟩ := exists_lookup_of_mapM givesStyles listed
  rw [styleKey_eq_name] at isStyle
  simp only [found, Option.getD_some]
  exact Yaml.Document.memberNode?_cases_of_orDefault? isMembers isStyle

/-- The tokens that are read from the record of tokens have the styles that are given for them. -/
theorem givesStyle_of_tokensOfNode?
    {yaml : Yaml.Document} {node record : Yaml.Node} {tokens : TokenClass → Option StyleDocument}
    (isRecord : yaml.memberNode? node "tokens" = some record)
    (reads : tokensOfNode? yaml record = some tokens) (tokenClass : TokenClass) :
    GivesStyle yaml node tokenClass (tokens tokenClass) := by
  have isToken : tokenNode? yaml node tokenClass = yaml.memberNode? record tokenClass.name := by
    rw [tokenNode?, isRecord, Option.bind_some]
  rcases cases_of_tokensOfNode? reads tokenClass with
    ⟨value, isValue, readsValue⟩ | ⟨missing, noStyle⟩
  · rcases Yaml.Document.optional?_cases readsValue with
      ⟨style, readsStyle, isStyle⟩ | ⟨isNothing, noStyle⟩
    · rw [isStyle]
      exact ⟨value, isToken.trans isValue, StyleDocument.isReadFrom readsStyle⟩
    · rw [noStyle]
      intro other isOther
      cases isOther.symm.trans (isToken.trans isValue)
      exact isNothing
  · rw [noStyle]
    intro other isOther
    cases isOther.symm.trans (isToken.trans missing)

/-- A theme document holds what its record says. -/
theorem isReadFrom
    {document : ThemeDocument} {yaml : Yaml.Document} {node : Yaml.Node}
    (reads : ofNode? yaml node = some document) :
    document.IsReadFrom yaml node := by
  simp only [ofNode?, Option.bind_eq_bind, Option.bind_eq_some_iff] at reads
  obtain
    ⟨members, isMembers, _, _, name, hasName, _, _, background, hasBackground, foreground,
      hasForeground, tokens, hasTokens, ⟨⟩⟩ := reads
  refine
    ⟨Yaml.Document.exists_memberNode?_of_required? isMembers hasName,
      Yaml.Document.exists_memberNode?_of_required? isMembers hasBackground,
      Yaml.Document.exists_memberNode?_of_required? isMembers hasForeground, fun tokenClass => ?_⟩
  rcases Yaml.Document.memberNode?_cases_of_orDefault? isMembers hasTokens with
    ⟨record, isRecord, readsRecord⟩ | ⟨missing, rfl⟩
  · exact givesStyle_of_tokensOfNode? isRecord readsRecord tokenClass
  · intro other isOther
    rw [tokenNode?, missing] at isOther
    cases isOther

/-! ### Reading colours one after the other -/

/-- The texts of the colours that a document holds for a token class. -/
def colorsOf (document : ThemeDocument) (tokenClass : TokenClass) : List String :=
  ((document.tokens tokenClass).map StyleDocument.color).toList

/-- The texts of all colours of a document: first those of the text and the ground, then those of
the token classes in their order. -/
def colors (document : ThemeDocument) : List String :=
  document.foreground :: document.background :: TokenClass.all.flatMap document.colorsOf

/-- Whether a text stands for no colour. -/
def isRefused (text : String) : Bool :=
  (Color.ofHex? text).isNone

/-- Whether texts are read one after the other: what comes of it has some property, or else the
first text that stands for no colour is reported. -/
def ReadsInOrder {α : Type} (texts : List String) (property : α → Prop)
    (result : Except ThemeError α) : Prop :=
  match texts.find? isRefused with
  | some text => result = .error (.invalidColor text)
  | none => ∃ value, result = .ok value ∧ property value

section

variable {α β : Type} {first second : List String} {property : α → Prop} {after : β → Prop}
  {result : Except ThemeError α}

theorem ReadsInOrder.bind
    {next : α → Except ThemeError β} (reads : ReadsInOrder first property result)
    (goesOn : ∀ value, property value → ReadsInOrder second after (next value)) :
    ReadsInOrder (first ++ second) after (result >>= next) := by
  rw [ReadsInOrder] at reads ⊢
  rw [List.find?_append]
  cases refused : first.find? isRefused with
  | some text =>
      rw [refused] at reads
      dsimp only at reads
      rw [reads]
      rfl
  | none =>
      rw [refused] at reads
      obtain ⟨value, rfl, isValue⟩ := reads
      exact goesOn value isValue

theorem readsInOrder_pure {value : β} (isValue : after value) :
    ReadsInOrder [] after (pure value) :=
  ⟨value, rfl, isValue⟩

/-- Either all texts are colours, or the first one that is none is reported. -/
theorem ReadsInOrder.cases (reads : ReadsInOrder first property result) :
    (∃ value, first.find? isRefused = none ∧ result = .ok value ∧ property value) ∨
      ∃ text, first.find? isRefused = some text ∧ result = .error (.invalidColor text) := by
  rw [ReadsInOrder] at reads
  cases found : first.find? isRefused with
  | some text =>
      rw [found] at reads
      exact .inr ⟨text, rfl, reads⟩
  | none =>
      rw [found] at reads
      obtain ⟨value, isValue, holds⟩ := reads
      exact .inl ⟨value, rfl, isValue, holds⟩

theorem find?_isRefused_eq_none_iff {texts : List String} :
    texts.find? isRefused = none ↔ ∀ text ∈ texts, (Color.ofHex? text).isSome = true := by
  simp [isRefused, Option.isSome_iff_ne_none]

theorem ReadsInOrder.exists_eq_ok_iff (reads : ReadsInOrder first property result) :
    (∃ value, result = .ok value) ↔ ∀ text ∈ first, (Color.ofHex? text).isSome = true := by
  rw [← find?_isRefused_eq_none_iff]
  rcases reads.cases with ⟨value, accepted, rfl, -⟩ | ⟨text, refused, rfl⟩
  · exact ⟨fun _ => accepted, fun _ => ⟨value, rfl⟩⟩
  · rw [refused]
    exact ⟨nofun, nofun⟩

theorem ReadsInOrder.of_eq_ok
    {value : α} (reads : ReadsInOrder first property result) (isValue : result = .ok value) :
    property value := by
  rcases reads.cases with ⟨other, -, isOther, holds⟩ | ⟨text, -, fails⟩
  · cases isOther.symm.trans isValue
    exact holds
  · cases fails.symm.trans isValue

theorem ReadsInOrder.eq_error_iff
    {failure : ThemeError} (reads : ReadsInOrder first property result) :
    result = .error failure ↔
      ∃ text, first.find? isRefused = some text ∧ failure = .invalidColor text := by
  rcases reads.cases with ⟨value, accepted, rfl, -⟩ | ⟨text, refused, rfl⟩
  · rw [accepted]
    exact ⟨nofun, nofun⟩
  · rw [refused]
    constructor
    · rintro ⟨⟩
      exact ⟨text, rfl, rfl⟩
    · rintro ⟨_, ⟨⟩, rfl⟩
      rfl

end

theorem readsInOrder_color (text : String) :
    ReadsInOrder [text] (fun value => Color.ofHex? text = some value) (color text) := by
  rw [ReadsInOrder, List.find?_singleton, isRefused, color]
  cases Color.ofHex? text with
  | none => rfl
  | some value => exact ⟨value, rfl, rfl⟩

/-- Whether a style is the one of a document, or an upright one where the document has none. -/
def IsStyled (foreground : Color) (given : Option StyleDocument) (style : Style) : Prop :=
  match given with
  | some document => ∃ color, Color.ofHex? document.color = some color ∧
      style = ⟨color, document.bold, document.italic⟩
  | none => style = ⟨foreground, false, false⟩

theorem readsInOrder_style
    (document : ThemeDocument) (foreground : Color) (tokenClass : TokenClass) :
    ReadsInOrder (document.colorsOf tokenClass)
      (IsStyled foreground (document.tokens tokenClass))
      (style foreground (document.tokens tokenClass)) := by
  rw [colorsOf]
  cases document.tokens tokenClass with
  | none => exact ⟨_, rfl, rfl⟩
  | some given =>
      exact (readsInOrder_color given.color).bind fun color isColor =>
        readsInOrder_pure ⟨color, isColor, rfl⟩

/-- Whether a theme has the colours and styles of a document. -/
structure IsResolvedTo (document : ThemeDocument) (theme : Theme) : Prop where
  name : theme.name = document.name
  foreground : Color.ofHex? document.foreground = some theme.palette.foreground
  background : Color.ofHex? document.background = some theme.palette.background
  styles : ∀ tokenClass,
    IsStyled theme.palette.foreground (document.tokens tokenClass)
      (theme.palette.style tokenClass)

/-- The theme of a document is made by reading its colours in order. -/
theorem readsInOrder_resolve (document : ThemeDocument) :
    ReadsInOrder document.colors document.IsResolvedTo document.resolve := by
  have styled := document.readsInOrder_style
  refine (readsInOrder_color document.foreground).bind fun foreground isForeground => ?_
  refine (readsInOrder_color document.background).bind fun background isBackground => ?_
  refine (styled foreground .comment).bind fun comments isComments => ?_
  refine (styled foreground .string).bind fun strings isStrings => ?_
  refine (styled foreground .number).bind fun numbers isNumbers => ?_
  refine (styled foreground .keyword).bind fun keywords isKeywords => ?_
  refine (styled foreground .type).bind fun types isTypes => ?_
  refine (styled foreground .builtin).bind fun builtins isBuiltins => ?_
  refine (styled foreground .tag).bind fun tags isTags => ?_
  refine (styled foreground .plain).bind fun plains isPlains => ?_
  refine readsInOrder_pure ⟨rfl, isForeground, isBackground, fun tokenClass => ?_⟩
  cases tokenClass
  case comment => exact isComments
  case string => exact isStrings
  case number => exact isNumbers
  case keyword => exact isKeywords
  case type => exact isTypes
  case builtin => exact isBuiltins
  case tag => exact isTags
  case plain => exact isPlains

/-- A theme document holds what its record says, each token class under its own name.  It has a
theme exactly if all its texts are colours, and every token class then has the style that is given
for it, or else an upright one in the colour of the text.  Otherwise the first text that is no
colour is reported. -/
theorem resolve_styles_and_first_refused (document : ThemeDocument) :
    (∀ yaml node, ofNode? yaml node = some document → document.IsReadFrom yaml node) ∧
      ((∃ theme, document.resolve = .ok theme) ↔
        ∀ text ∈ document.colors, (Color.ofHex? text).isSome = true) ∧
      (∀ theme, document.resolve = .ok theme → document.IsResolvedTo theme) ∧
      ∀ failure, document.resolve = .error failure ↔
        ∃ text, document.colors.find? isRefused = some text ∧ failure = .invalidColor text := by
  have inOrder := document.readsInOrder_resolve
  exact
    ⟨fun yaml node => isReadFrom, inOrder.exists_eq_ok_iff, fun theme => inOrder.of_eq_ok,
      fun failure => inOrder.eq_error_iff⟩

/-- A scalar without quotes. -/
def word (text : String) : Yaml.Node :=
  .scalar ⟨.plain, none, text⟩

/-- A theme record with a style for one token class. -/
def sampleRecord : Yaml.Node :=
  .mapping
    [(word "version", word "1"), (word "name", word "Solar"),
      (word "background", word "#000000"), (word "foreground", word "#FFFFFF"),
      (word "tokens",
        .mapping
          [(word "type", .mapping [(word "color", word "#00FF00"), (word "bold", word "true")])])]

theorem resolve_styles_and_first_refused_sample :
    ∃ document theme,
      ofNode? ⟨sampleRecord, []⟩ sampleRecord = some document ∧
        document.IsReadFrom ⟨sampleRecord, []⟩ sampleRecord ∧
        document.resolve = .ok theme ∧
        theme.palette.style .type = ⟨⟨0, 0xFF, 0, 0xFF⟩, true, false⟩ ∧
        theme.palette.style .comment = ⟨theme.palette.foreground, false, false⟩ := by
  have described :
      (ofNode? ⟨sampleRecord, []⟩ sampleRecord).map
          (fun document => (document.colors, document.tokens .type, document.tokens .comment)) =
        some (["#FFFFFF", "#000000", "#00FF00"], some ⟨"#00FF00", true, false⟩, none) := by
    decide +kernel
  obtain ⟨document, reads, described⟩ := Option.map_eq_some_iff.mp described
  simp only [Prod.mk.injEq] at described
  obtain ⟨isColors, isType, isComment⟩ := described
  obtain ⟨isReadFrom, accepts, resolves, -⟩ := resolve_styles_and_first_refused document
  obtain ⟨theme, isTheme⟩ := accepts.mpr (by rw [isColors]; decide)
  have styles := (resolves theme isTheme).styles
  have green : Color.ofHex? "#00FF00" = some ⟨0, 0xFF, 0, 0xFF⟩ := by decide
  have typed := styles .type
  have commented := styles .comment
  rw [isType] at typed
  rw [isComment] at commented
  obtain ⟨color, isColor, typed⟩ := typed
  cases green.symm.trans isColor
  exact ⟨document, theme, reads, isReadFrom _ _ reads, isTheme, typed, commented⟩

end ThemeDocument

end SourcePreview
