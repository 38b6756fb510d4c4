import ModifierToggle.Language.Modifier
import ModifierToggle.Text.LetterCase
import ModifierToggle.Text.Quoted

set_option autoImplicit false

/-! # Language tables

A `Language` answers every question the toggles ask about a language: which keyword opens a
declaration, which visibilities there are and which of them goes without saying, how the modifiers
are spelled. Nothing outside this file depends on the name of a language: a new language is a new
table. -/

namespace ModifierToggle

/-- The description of one language. -/
structure Language where
  name : Text
  /-- The keywords that open a declaration; `none` for a language without declarations. -/
  declarationStart : Option Keyword.Pattern
  classVisibilities : List Text
  memberVisibilities : List Text
  /-- The visibility that is never spelled out on a class. -/
  implicitClassVisibility : Text
  /-- The visibility that is not spelled out on a member unless `explicitPrivate` holds. -/
  implicitMemberVisibility : Text
  explicitPrivate : Bool
  /-- Access names of the user's own. -/
  customAccess : List Text
  /-- The order in which visibilities are offered. -/
  accessOrder : List Text
  /-- Whether visibilities move in front of the other modifiers. -/
  startWithModifiers : Bool
  tokens : List Token
  /-- How visibility keywords are recognised. -/
  visibility : Keyword.Pattern
  deriving Repr, DecidableEq

/-- The user's settings for a language table. -/
structure LanguageOptions where
  startWithModifiers : Bool := false
  explicitPrivate : Bool := false
  customAccess : List Text := []
  accessOrder : List Text := []
  deriving Repr, DecidableEq

namespace Language

/-! ## Asking a table -/

/-- The spelling of a modifier, if the language has it. -/
def token? (lang : Language) (m : Modifier) : Option Token :=
  lang.tokens.find? (·.modifier == m)

/-- Whether a modifier exists and applies to declarations of a kind. -/
def supports (lang : Language) (m : Modifier) (k : Kind) : Bool :=
  (lang.token? m).any (·.appliesTo k)

/-- The visibilities built into the language for declarations of a kind. -/
def visibilities (lang : Language) : Kind → List Text
  | .classDecl => lang.classVisibilities
  | _ => lang.memberVisibilities

/-- The visibility of a declaration that spells none out. -/
def implicitVisibility (lang : Language) : Kind → Text
  | .classDecl => lang.implicitClassVisibility
  | _ => lang.implicitMemberVisibility

/-- Whether a visibility goes without saying on declarations of a kind. -/
def omits (lang : Language) (k : Kind) (vis : Text) : Bool :=
  (k == .classDecl || !lang.explicitPrivate)
    && !(lang.implicitVisibility k).isEmpty && vis == lang.implicitVisibility k

/-- The keyword written to give a declaration of a kind a visibility; empty when it goes without
    saying. -/
def visibilityKeyword (lang : Language) (k : Kind) (vis : Text) : Text :=
  if lang.omits k vis then [] else vis

/-- Every visibility and access name of the language, each once: members' before classes' before
    custom ones. -/
def allVisibilities (lang : Language) : List Text :=
  ((lang.memberVisibilities ++ lang.classVisibilities ++ lang.customAccess).filter
    (!·.isEmpty)).eraseDups

/-- Whether a word is a visibility keyword. -/
def isVisibility (lang : Language) (word : Text) : Bool := lang.allVisibilities.contains word

/-- The first visibility keyword of a text. -/
def findVisibility? (lang : Language) (t : Text) : Option Keyword.Occurrence :=
  lang.visibility.find? t

/-- The place of a visibility in the order of the menu, if it has one. -/
def accessIndex? (lang : Language) (vis : Text) : Option Nat :=
  lang.accessOrder.findIdx? (· == vis)

/-- The first keyword of a text that opens a declaration. -/
def findStart? (lang : Language) (t : Text) : Option Keyword.Occurrence :=
  lang.declarationStart.bind (·.find? t)

/-! ## Building a table -/

/-- The table with its visibility keywords made recognisable. -/
def withVisibilityPattern (lang : Language) : Language :=
  { lang with visibility := { words := lang.allVisibilities } }

/-- The names of a list, trimmed, without empty ones and without repetition. -/
def distinctNames (names : List Text) : List Text :=
  ((names.map Text.trim).filter (!·.isEmpty)).eraseDups

/-- A list of the user's, or the one built in when the user gives none. -/
def orElse (names builtIn : List Text) : List Text :=
  if names.isEmpty then builtIn else distinctNames names

/-- The table with no entries. -/
def empty : Language :=
  { name := [], declarationStart := none, classVisibilities := [], memberVisibilities := [],
    implicitClassVisibility := [], implicitMemberVisibility := [], explicitPrivate := false,
    customAccess := [], accessOrder := [], startWithModifiers := false, tokens := [],
    visibility := { words := [] } }

/-- The table of Haxe. -/
def haxe (opts : LanguageOptions) : Language :=
  withVisibilityPattern
    { name := utf8 "haxe"
      declarationStart := some
        { words := [utf8 "class", utf8 "interface", utf8 "abstract", utf8 "enum", utf8 "typedef",
            utf8 "var", utf8 "function"]
          atEnd := false }
      classVisibilities := [utf8 "public", utf8 "private"]
      memberVisibilities := [utf8 "public", utf8 "private"]
      implicitClassVisibility := utf8 "public"
      implicitMemberVisibility := utf8 "private"
      explicitPrivate := opts.explicitPrivate
      customAccess := []
      accessOrder := orElse opts.accessOrder [utf8 "public", utf8 "private"]
      startWithModifiers := opts.startWithModifiers
      tokens :=
        [Token.new .static (utf8 "static") .leadingSpecial .free [.method, .field],
         Token.new .final (utf8 "@:final") .leadingSpecial .lineStart [.classDecl, .method],
         Token.new .external (utf8 "extern") .leadingSpecial .free [.classDecl],
         Token.new .inlined (utf8 "inline") .trailingSpecial .beforeKeyword [.method],
         Token.new .noCompletion (utf8 "@:noCompletion") .metadata .lineStart [.method, .field]]
      visibility := { words := [] } }

/-- The table of ActionScript 3, which has access names of the user's own but neither inlining nor
    completion metadata. -/
def actionScript3 (opts : LanguageOptions) : Language :=
  withVisibilityPattern
    { name := utf8 "as3"
      declarationStart := some
        { words := [utf8 "class", utf8 "interface", utf8 "var", utf8 "const", utf8 "function"]
          atEnd := false }
      classVisibilities := [utf8 "public", utf8 "internal"]
      memberVisibilities := [utf8 "public", utf8 "protected", utf8 "internal", utf8 "private"]
      implicitClassVisibility := utf8 "internal"
      implicitMemberVisibility := utf8 "internal"
      explicitPrivate := opts.explicitPrivate
      customAccess := distinctNames opts.customAccess
      accessOrder := orElse opts.accessOrder
        [utf8 "public", utf8 "protected", utf8 "internal", utf8 "private"]
      startWithModifiers := opts.startWithModifiers
      tokens :=
        [Token.new .static (utf8 "static") .leadingSpecial .free [.method, .field],
         Token.new .final (utf8 "final") .leadingSpecial .lineStart [.classDecl, .method]]
      visibility := { words := [] } }

/-- The names of the tables to start from. -/
def baseNames : List Text := [utf8 "haxe", utf8 "as3"]

/-- The table to start from with a given name. -/
def base? (name : Text) : Option (LanguageOptions → Language) :=
  if name = utf8 "haxe" then some haxe
  else if name = utf8 "as3" then some actionScript3
  else none

/-- Why no table can be built. -/
inductive BuildError where
  | unknownBase (base : Text)
  /-- An access name is not well-formed, and making it recognisable breaks down. -/
  | breakdown
  deriving Repr, DecidableEq

/-- The wording of the error. -/
def BuildError.message : BuildError → Text
  | .unknownBase base => utf8 "unknown base language " ++ base.quoted
  | .breakdown => []

/-- The table named `base` with the user's settings, under a name of its own unless that is blank.
    Names are kept in the form in which they are compared. -/
def build (name base : Text) (opts : LanguageOptions) : Except BuildError Language :=
  match base? base.nameKey with
  | none => .error (.unknownBase base)
  | some table =>
    let lang := table opts
    if lang.allVisibilities.all Text.isWellFormed then
      .ok (if name.nameKey.isEmpty then lang else { lang with name := name.nameKey })
    else .error .breakdown

end Language

/-! ## Registries -/

/-- The languages a host can ask for, in order. -/
structure Registry where
  languages : List Language
  deriving Repr, DecidableEq

namespace Registry

/-- The built-in tables with their usual settings. -/
def default : Registry :=
  let opts : LanguageOptions := { startWithModifiers := true }
  ⟨[Language.haxe opts, Language.actionScript3 opts]⟩

/-- The table for a language identifier: one with exactly that name, or else one whose name the
    identifier starts with, so that a version number after the name does no harm. -/
def lookup? (r : Registry) (language : Text) : Option Language :=
  let key := language.nameKey
  if key.isEmpty then none
  else (r.languages.find? (·.name == key)).or (r.languages.find? (·.name.isPrefixOf key))

end Registry

end ModifierToggle
