import ModifierToggle.CommandLine.Request
import ModifierToggle.Session

set_option autoImplicit false

/-! # Running requests

A request is answered with what is printed, at most one file to write, and an error if it fails. All
three follow from the request and the files it reads. -/

namespace ModifierToggle

/-- Why a command fails. -/
inductive CommandError where
  | request (cause : RequestError)
  | session (cause : OpenError)
  | settings (cause : LoadError)
  | tables (cause : Settings.TableError)
  | noToggles (position : Text)
  | noSuchLabel (label : Text)
  | badSelection (selected : Int) (count : Nat)
  | toggle (label : Text) (cause : EditError)
  | save (cause : Session.SaveError)
  /-- Looking for the line ending to save with breaks down. -/
  | lineEnding
  deriving Repr, DecidableEq

/-- The wording of the cause alone. -/
def CommandError.cause : CommandError → Text
  | .request cause => cause.message
  | .session cause => cause.message
  | .settings cause => cause.message
  | .tables cause => cause.message
  | .noToggles position => utf8 "no toggles at " ++ position
  | .noSuchLabel label => utf8 "no toggle labelled " ++ label.quoted
  | .badSelection selected count =>
    utf8 "selection " ++ Decimal.ofInt selected ++ utf8 " out of range 1.." ++ Decimal.ofNat count
  | .toggle label cause => utf8 "applying " ++ label.quoted ++ utf8 ": " ++ cause.message
  | .save cause => cause.message
  | .lineEnding => []

/-- The wording of the error. -/
def CommandError.message (e : CommandError) : Text := utf8 "failed to execute command: " ++ e.cause

/-- The answer to a request. -/
structure Answer where
  printed : Text := []
  /-- The path and the text of the file to write. -/
  write : Option (Text × Text) := none
  error : Option CommandError := none
  deriving Repr, DecidableEq

namespace Answer

/-- The answer of a command that fails. -/
def failed (e : CommandError) : Answer := { error := some e }

end Answer

/-- Where a request is answered: how files are read, the working directory, and whether what is
    printed is styled. -/
structure Surroundings where
  read : FileReader
  home : List Text
  styled : Bool

namespace Surroundings

/-! ## The menu -/

/-- A number at the end of two columns. -/
def aligned (n : Nat) : Text :=
  let digits := Decimal.ofNat n
  List.replicate (2 - digits.length) Byte.space ++ digits

/-- The entries of a menu, numbered from `n` on. -/
def numbered (styled : Bool) : Nat → List MenuItem → Text
  | _, [] => []
  | n, item :: rest =>
    Text.styled (aligned n ++ utf8 ")") styled [.cyan, .bold] ++ utf8 " " ++ item.action.label
      ++ [Byte.newline] ++ numbered styled (n + 1) rest

/-- The options of the session that flags ask for. -/
def openOptions (given : Flag.Given) : OpenOptions :=
  { file := given.text "file", outline := given.text "outline", settings := given.text "config"
    position := given.text "pos", language := given.text "language" }

/-- Print the menu. -/
def menu (here : Surroundings) (given : Flag.Given) : Answer :=
  match Session.openWith here.read (openOptions given) with
  | .error cause => .failed (.session cause)
  | .ok session =>
    match session.contextual? with
    | none =>
      { printed :=
          (utf8 "no toggles at this position").styled here.styled [.faint] ++ [Byte.newline] }
    | some items => { printed := numbered here.styled 1 items }

/-! ## Applying a toggle -/

/-- The entry that flags ask for: by its label, in any case, or by its number. -/
def pick (given : Flag.Given) (items : List MenuItem) : Except CommandError MenuItem :=
  let label := given.text "label"
  let selected := given.number "select"
  if !label.isEmpty then
    match items.find? (·.action.label.equalFold label) with
    | some item => .ok item
    | none => .error (.noSuchLabel label)
  else
    match if selected < 1 then none else items[(selected - 1).toNat]? with
    | some item => .ok item
    | none => .error (.badSelection selected items.length)

/-- The answer of a session in which a toggle has been applied: its file written, or the changes
    printed. -/
def finish (here : Surroundings) (given : Flag.Given) (session : Session) : Answer :=
  if given.switch "write" then
    match session.toWrite? here.read here.home with
    | some write => { write := some write }
    | none => .failed .lineEnding
  else { printed := LineDiff.printed here.styled (session.diff LineDiff.byLines) }

/-- Apply a toggle. -/
def apply (here : Surroundings) (given : Flag.Given) : Answer :=
  match Session.openWith here.read (openOptions given) with
  | .error cause => .failed (.session cause)
  | .ok session =>
    match session.contextual? with
    | none => .failed (.noToggles (given.text "pos"))
    | some items =>
      match pick given items with
      | .error e => .failed e
      | .ok item =>
        let outcome := item.invoke { buffer := session.buffer }
        match outcome.error with
        | some cause => .failed (.toggle item.action.label cause)
        | none => here.finish given { session with buffer := outcome.work.buffer }

/-! ## Listing languages -/

/-- The line about a language. -/
def languageLine (styled : Bool) (lang : LanguageSettings) (table : Language) : Text :=
  let comma := Text.join (utf8 ",")
  table.name.styled styled [.bold] ++ utf8 "  files=" ++ comma lang.files
    ++ utf8 "  visibility=" ++ comma table.memberVisibilities
    ++ (if table.customAccess.isEmpty then []
        else utf8 "  custom=" ++ comma table.customAccess)
    ++ [Byte.newline]

/-- List the languages. -/
def languages (here : Surroundings) (given : Flag.Given) : Answer :=
  match Settings.load here.read (given.text "config") with
  | .error cause => .failed (.settings cause)
  | .ok settings =>
    match settings.registry with
    | .error cause => .failed (.tables cause)
    | .ok registry =>
      { printed := settings.entries.flatMap fun lang =>
          match registry.lookup? lang.name with
          | some table => languageLine here.styled lang table
          | none => [] }

/-! ## Requests -/

/-- What the program says about itself. -/
def explanation : Text :=
  utf8 "Toggle declaration modifiers in Haxe and ActionScript sources\n\n"
    ++ utf8 "Commands:\n"
    ++ utf8 "  menu       list the modifier toggles available at a cursor position\n"
    ++ utf8 "  apply      apply one modifier toggle at a cursor position\n"
    ++ utf8 "  languages  list configured languages and the files they apply to\n"

/-- Answer a request. -/
def answer (here : Surroundings) : Request → Answer
  | .run .menu given => here.menu given
  | .run .apply given => here.apply given
  | .run .languages given => here.languages given
  | .explain => { printed := explanation }
  | .unknownTopic => {}

/-- Answer the arguments of the program. -/
def answerArguments (here : Surroundings) (arguments : List Text) : Answer :=
  match Request.ofArguments arguments with
  | .error cause => .failed (.request cause)
  | .ok request => here.answer request

end Surroundings

namespace Request

/-- The paths of the files that a request may read, seen from a working directory. -/
def paths (home : List Text) : Request → List Text
  | .run _ given =>
    let file := given.text "file"
    [given.text "config", file, given.text "outline"]
      ++ (EditorConfig.directories (Path.resolve home file)).map fun directory =>
        Path.absolute (directory ++ [utf8 ".editorconfig"])
  | .explain | .unknownTopic => []

end Request

end ModifierToggle
