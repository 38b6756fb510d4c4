import ModifierToggle.Hcl.Body
import ModifierToggle.Settings.Basic
import ModifierToggle.Yaml.Record

set_option autoImplicit false

/-! # Settings files

Settings are written in YAML or in HCL; the name of the file tells which. In both formats a file
must not give anything that is no setting. -/

namespace ModifierToggle

namespace LanguageSettings

open Yaml

/-- Read a field of a language and set it. -/
def set (p : Site) (lang : LanguageSettings) (name : Text) (n : Node) :
    Reading LanguageSettings :=
  if name == utf8 "name" then Reader.field Reader.text p n lang fun v => { lang with name := v }
  else if name == utf8 "base" then
    Reader.field Reader.text p n lang fun v => { lang with base := v }
  else if name == utf8 "files" then
    Reader.field (Reader.list Reader.text) p n lang fun v => { lang with files := v }
  else if name == utf8 "custom_access" then
    Reader.field (Reader.list Reader.text) p n lang fun v => { lang with customAccess := v }
  else if name == utf8 "access_order" then
    Reader.field (Reader.list Reader.text) p n lang fun v => { lang with accessOrder := v }
  else
    Reader.field (Reader.orNull Reader.bool) p n lang fun v => { lang with explicitPrivate := v }

/-- How a language is read. -/
def shape : Shape LanguageSettings :=
  { fields :=
      [utf8 "name", utf8 "base", utf8 "files", utf8 "custom_access", utf8 "access_order",
       utf8 "explicit_private"]
    default := {}, set }

open Hcl in
/-- The language that a block describes; its label is the name. -/
def ofBlock? (name : Text) (body : Body) : Option LanguageSettings := do
  if body.fits [utf8 "base", utf8 "files", utf8 "custom_access", utf8 "access_order",
      utf8 "explicit_private"] [] then
    let base ← body.given (utf8 "base") [] Body.text
    let files ← body.given (utf8 "files") [] Body.texts
    let customAccess ← body.given (utf8 "custom_access") [] Body.texts
    let accessOrder ← body.given (utf8 "access_order") [] Body.texts
    let explicitPrivate ← body.given (utf8 "explicit_private") none Body.boolOrNull
    return { name, base, files, customAccess, accessOrder, explicitPrivate }
  else none

end LanguageSettings

namespace Settings

/-- Why a text holds no settings. -/
inductive ReadError where
  | yaml
  /-- Reading the text breaks down. -/
  | yamlBreakdown
  /-- The text is not well-formed. -/
  | hclForm
  /-- The text is well-formed, but not as settings. -/
  | hclContent
  deriving Repr, DecidableEq

/-- The wording of the error. -/
def ReadError.message : ReadError → Text
  | .yaml => utf8 "parsing YAML"
  | .yamlBreakdown => []
  | .hclForm => utf8 "parsing HCL"
  | .hclContent => utf8 "decoding HCL"

/-! ## YAML -/

open Yaml in
/-- Read a field of the settings and set it. -/
def set (p : Site) (s : Settings) (name : Text) (n : Node) : Reading Settings :=
  if name == utf8 "start_with_modifiers" then
    Reader.field (Reader.orNull Reader.bool) p n s fun v => { s with startWithModifiers := v }
  else if name == utf8 "explicit_private" then
    Reader.field Reader.bool p n s fun v => { s with explicitPrivate := v }
  else
    Reader.field (Reader.list (Reader.orNull (Reader.record LanguageSettings.shape))) p n s fun v =>
      { s with languages := v }

/-- How settings are read. -/
def shape : Yaml.Shape Settings :=
  { fields := [utf8 "start_with_modifiers", utf8 "explicit_private", utf8 "languages"]
    default := {}, set }

/-- Read settings from the first document of a YAML text. -/
def ofYaml (t : Text) : Except ReadError Settings :=
  (shape.ofText t).mapError fun
    | .refused => .yaml
    | .breakdown => .yamlBreakdown

/-! ## HCL -/

open Hcl in
/-- The settings that a body describes. -/
def ofBody? (body : Body) : Option Settings := do
  if body.fits [utf8 "start_with_modifiers", utf8 "explicit_private"] [(utf8 "language", 1)] then
    let startWithModifiers ←
      body.given (utf8 "start_with_modifiers") none Body.boolOrNull
    let explicitPrivate ← body.given (utf8 "explicit_private") false Body.bool
    let languages ← body.blocks.mapM fun (_, labels, inner) =>
      LanguageSettings.ofBlock? (labels.headD []) inner
    return { startWithModifiers, explicitPrivate, languages := languages.map some }
  else none

/-- Read settings from an HCL text. -/
def ofHcl (t : Text) : Except ReadError Settings :=
  match Hcl.Body.ofText? t with
  | none => .error .hclForm
  | some body =>
    match ofBody? body with
    | none => .error .hclContent
    | some s => .ok s

/-! ## Files -/

/-- Whether a file with a name is in YAML. -/
def isYamlPath (path : Text) : Bool :=
  (utf8 ".yaml").isSuffixOf path || (utf8 ".yml").isSuffixOf path

/-- Read settings from the text of a file with a name. -/
def ofText (path t : Text) : Except ReadError Settings :=
  if isYamlPath path then ofYaml t else ofHcl t

end Settings

end ModifierToggle
