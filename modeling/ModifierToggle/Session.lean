import ModifierToggle.Buffer.LineEnding
import ModifierToggle.Buffer.Place
import ModifierToggle.Contextual
import ModifierToggle.Declaration.Outline
import ModifierToggle.EditorConfig.LineEnding
import ModifierToggle.LineDiff.Render
import ModifierToggle.Settings.Reading

set_option autoImplicit false

/-! # Sessions

A session is one source file opened for toggling: its text in a buffer with the cursor in place, the
model of its declarations from an outline, and the language tables from the settings. It can be
asked for the toggles at the cursor, for what has changed, and for the text to save. -/

namespace ModifierToggle

/-- Why no settings can be loaded. -/
inductive LoadError where
  | file (path : Text) (cause : FileError)
  | read (cause : Settings.ReadError)
  | problems (path : Text) (problems : List Settings.Problem)
  deriving Repr, DecidableEq

/-- The wording of the error. -/
def LoadError.message : LoadError → Text
  | .file path cause => utf8 "reading config file: " ++ cause.message path
  | .read cause => cause.message
  | .problems path ps => utf8 "invalid config " ++ path ++ utf8 ": " ++ Settings.problemReport ps

namespace Settings

/-- Load settings that make sense. Without a path these are the usual ones. -/
def load (read : FileReader) (path : Text) : Except LoadError Settings :=
  if path.isEmpty then .ok default
  else match read path with
    | .error cause => .error (.file path cause)
    | .ok contents =>
      match ofText path contents with
      | .error cause => .error (.read cause)
      | .ok s =>
        let problems := s.problems Glob.matcher
        if problems.isEmpty then .ok s else .error (.problems path problems)

end Settings

/-! ## Opening -/

/-- What a session is opened with. -/
structure OpenOptions where
  file : Text := []
  outline : Text := []
  /-- The path of the settings; empty for the usual ones. -/
  settings : Text := []
  /-- The place of the cursor; empty for the start of the file. -/
  position : Text := []
  /-- The language; empty to find it out. -/
  language : Text := []
  deriving Repr, DecidableEq

/-- Why a session cannot be opened. -/
inductive OpenError where
  | settings (cause : LoadError)
  | tables (cause : Settings.TableError)
  | source (path : Text) (cause : FileError)
  | outlineFile (path : Text) (cause : FileError)
  | outline (path : Text) (cause : Outline.Error)
  | position (cause : PlaceError)
  | cursor (place : Place) (cause : Buffer.OffsetError)
  deriving Repr, DecidableEq

/-- The wording of the error. -/
def OpenError.message : OpenError → Text
  | .settings cause => cause.message
  | .tables cause => utf8 "building language tables: " ++ cause.message
  | .source path cause => utf8 "reading " ++ path ++ utf8 ": " ++ cause.message path
  | .outlineFile path cause => utf8 "reading outline file: " ++ cause.message path
  | .outline path cause => utf8 "decoding outline " ++ path ++ utf8 ": " ++ cause.message
  | .position cause => cause.message
  | .cursor place cause => utf8 "cursor " ++ place.render ++ utf8 ": " ++ cause.message

/-- A source file opened for toggling. -/
structure Session where
  path : Text
  /-- The text as it was loaded or last saved. -/
  saved : Text
  settings : Settings
  registry : Registry
  buffer : Buffer
  model : FileModel
  language : Text
  deriving Repr, DecidableEq

namespace Session

/-- The language of a session: the one asked for, or that of the outline, or that of the file's
    name. -/
def detectLanguage (settings : Settings) (model : FileModel) (opts : OpenOptions) : Text :=
  if !opts.language.isEmpty then opts.language
  else if !model.language.isEmpty then model.language
  else (settings.languageFor? Glob.matcher opts.file).getD []

/-- Put the cursor of a buffer at a place as it is written. -/
def placeCursor (b : Buffer) (position : Text) : Except OpenError Buffer :=
  if position.isEmpty then .ok b
  else match Place.parse position with
    | .error cause => .error (.position cause)
    | .ok place =>
      match b.offsetOf Cluster.splitter place with
      | .error cause => .error (.cursor place cause)
      | .ok offset => .ok (b.moveCursor offset)

/-- Read an outline file. -/
def readOutline (read : FileReader) (path : Text) : Except OpenError FileModel :=
  match read path with
  | .error cause => .error (.outlineFile path cause)
  | .ok contents => (FileModel.ofOutline contents).mapError (.outline path)

/-- Open a session. -/
def openWith (read : FileReader) (opts : OpenOptions) : Except OpenError Session := do
  let settings ← (Settings.load read opts.settings).mapError .settings
  let registry ← settings.registry.mapError .tables
  let source ← (read opts.file).mapError (.source opts.file)
  let model ← readOutline read opts.outline
  let buffer ← placeCursor (Buffer.ofText source) opts.position
  return { path := opts.file, saved := source, settings, registry, buffer, model
           language := detectLanguage settings model opts }

/-- What opening reports. -/
def openEvents (s : Session) : List Event :=
  [.openedSession s.path s.language s.buffer.cursor s.model.classes.length]

/-! ## Using -/

/-- The session as a host of toggles. -/
def host (s : Session) : Host :=
  { language := s.language, buffer := some s.buffer, model := some s.model }

/-- The toggles at the cursor. -/
def contextual? (s : Session) : Option (List MenuItem) := s.host.contextual? s.registry

/-- Whether the text differs from the one saved. -/
def changed (s : Session) : Bool := s.buffer.text != s.saved

/-- The lines that differ from the text saved, where `d` finds the difference. -/
def diff (d : LineDiff.Differ) (s : Session) : Text :=
  (d s.saved s.buffer.text).flatMap LineDiff.Stretch.render

/-- The place of the cursor. -/
def place (s : Session) : Except Buffer.ColumnError Place :=
  s.buffer.placeOf Cluster.splitter s.buffer.cursor

/-- Why a session cannot be saved. -/
structure SaveError where
  path : Text
  cause : FileError
  deriving Repr, DecidableEq

/-- The wording of the error. -/
def SaveError.message (e : SaveError) : Text :=
  utf8 "opening " ++ e.path ++ utf8 " for writing: " ++ e.cause.message e.path

/-- The text to write when the file is saved with a line ending; with an empty one, line ends stay
    as they are. -/
def textToSave (s : Session) (ending : Text) : Text :=
  if ending.isEmpty then s.buffer.text else Text.withLineEndings ending s.buffer.text

/-- The path and the text to write when the session is saved, with the line ending settled for the
    file; paths are seen from a working directory. `none` when looking for the line ending breaks
    down. -/
def toWrite? (s : Session) (read : FileReader) (home : List Text) : Option (Text × Text) :=
  (EditorConfig.lineEnding? read (Path.resolve home s.path)).map fun ending =>
    (s.path, s.textToSave ending)

/-- The session after its text has been written. -/
def afterSave (s : Session) : Session := { s with saved := s.buffer.text }

end Session

end ModifierToggle
