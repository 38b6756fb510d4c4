import ModifierToggle.Glob
import ModifierToggle.Language.Basic
import ModifierToggle.Text.Decimal

set_option autoImplicit false

/-! # Settings

The user's settings name the languages, say which built-in table each of them starts from and which
files it is for, and set a few options for one language or for all of them. An entry of the list of
languages may be null: it is passed over, but it has a number like any other entry.

Settings can be well-formed and still make no sense. `Settings.problems` lists everything that is
wrong with them at once. How file patterns are read is left to a `Matcher`. -/

namespace ModifierToggle

/-- The settings of one language. -/
structure LanguageSettings where
  name : Text := []
  /-- The built-in table to start from; empty for the one with the language's own name. -/
  base : Text := []
  /-- The patterns of the files in the language. -/
  files : List Text := []
  customAccess : List Text := []
  accessOrder : List Text := []
  /-- Overrides the setting for all languages. -/
  explicitPrivate : Option Bool := none
  deriving Repr, DecidableEq

/-- The user's settings. -/
structure Settings where
  /-- Whether visibilities move in front of the other modifiers; they do unless told otherwise. -/
  startWithModifiers : Option Bool := none
  /-- Whether the visibility that goes without saying is spelled out on members. -/
  explicitPrivate : Bool := false
  languages : List (Option LanguageSettings) := []
  deriving Repr, DecidableEq

namespace LanguageSettings

/-- The name of the table to start from. -/
def tableName (lang : LanguageSettings) : Text :=
  if lang.base.isEmpty then lang.name else lang.base

/-- Whether one of the language's patterns matches a path. -/
def covers (m : Matcher) (lang : LanguageSettings) (path : Text) : Bool :=
  lang.files.any (m.accepts · path)

end LanguageSettings

namespace Settings

/-- The settings of a user who has none. -/
def default : Settings :=
  { languages :=
      [some { name := utf8 "haxe", files := [utf8 "**/*.hx"] },
       some { name := utf8 "as3", files := [utf8 "**/*.as", utf8 "**/*.mxml"] }] }

/-- The languages there are. -/
def entries (s : Settings) : List LanguageSettings := s.languages.filterMap id

/-! ## Problems -/

/-- Something that is wrong with well-formed settings. -/
inductive Problem where
  | missingName (index : Nat)
  | declaredTwice (name : Text)
  | unknownBase (name base : Text)
  | badPattern (name pattern : Text)
  deriving Repr, DecidableEq

/-- The wording of a problem. -/
def Problem.message : Problem → Text
  | .missingName i => utf8 "language " ++ Decimal.ofNat i ++ utf8 ": missing name"
  | .declaredTwice name => utf8 "language " ++ name.quoted ++ utf8 ": declared twice"
  | .unknownBase name base =>
    utf8 "language " ++ name.quoted ++ utf8 ": unknown base " ++ base.quoted
  | .badPattern name pattern =>
    utf8 "language " ++ name.quoted ++ utf8 ": bad file pattern " ++ pattern.quoted

/-- The problems of a named language, where `seen` are the names before it in the form in which
    names are compared. -/
def problemsOf (m : Matcher) (seen : List Text) (lang : LanguageSettings) : List Problem :=
  (if seen.contains lang.name.nameKey then [.declaredTwice lang.name] else [])
    ++ (if Language.baseNames.contains lang.tableName.nameKey then []
        else [.unknownBase lang.name lang.tableName])
    ++ (lang.files.filter (!m.isPattern ·)).map (.badPattern lang.name)

/-- The problems of a list of languages whose first entry has number `i`. -/
def problemsFrom (m : Matcher) (seen : List Text) :
    Nat → List (Option LanguageSettings) → List Problem
  | _, [] => []
  | i, none :: rest => problemsFrom m seen (i + 1) rest
  | i, some lang :: rest =>
    if lang.name.isEmpty then .missingName i :: problemsFrom m seen (i + 1) rest
    else problemsOf m seen lang ++ problemsFrom m (lang.name.nameKey :: seen) (i + 1) rest

/-- Everything that is wrong with the settings. -/
def problems (m : Matcher) (s : Settings) : List Problem := problemsFrom m [] 0 s.languages

/-- The wording of several problems at once, one below the other. -/
def problemReport (ps : List Problem) : Text :=
  (if ps.length = 1 then utf8 "1 error occurred:\n\t* "
   else Decimal.ofNat ps.length ++ utf8 " errors occurred:\n\t* ")
    ++ Text.join (utf8 "\n\t* ") (ps.map Problem.message) ++ utf8 "\n\n"

/-! ## What the settings mean -/

/-- The options with which the table of a language is built. -/
def options (s : Settings) (lang : LanguageSettings) : LanguageOptions :=
  { startWithModifiers := s.startWithModifiers.getD true
    explicitPrivate := lang.explicitPrivate.getD s.explicitPrivate
    customAccess := lang.customAccess
    accessOrder := lang.accessOrder }

/-- Why there are no tables for the settings: no table can be built for one of the languages. -/
structure TableError where
  name : Text
  cause : Language.BuildError
  deriving Repr, DecidableEq

/-- The wording of the error. -/
def TableError.message (e : TableError) : Text :=
  utf8 "language " ++ e.name.quoted ++ utf8 ": " ++ e.cause.message

/-- The table of one language. -/
def table (s : Settings) (lang : LanguageSettings) : Except TableError Language :=
  (Language.build lang.name lang.tableName (s.options lang)).mapError (⟨lang.name, ·⟩)

/-- The tables of all languages. -/
def registry (s : Settings) : Except TableError Registry :=
  (s.entries.mapM s.table).map (⟨·⟩)

/-- A path as patterns see it: without a slash in front. -/
def relativePath : Text → Text
  | 0x2F :: path => path
  | path => path

/-- The name of the first language that is for the file at a path. -/
def languageFor? (m : Matcher) (s : Settings) (path : Text) : Option Text :=
  (s.entries.find? (·.covers m (relativePath path))).map (·.name)

end Settings

end ModifierToggle
