import ModifierToggle.Text.Basic

set_option autoImplicit false

/-! # Files

The program reads a handful of files and writes at most one. Whatever it works out from them is a
function of their contents, so it gets at a file through a *reader*: a function from paths to
contents or to the reason why there are none. -/

namespace ModifierToggle

/-- Why a file cannot be used. -/
inductive FileError where
  | missing
  | notADirectory
  | isADirectory
  /-- Nothing may be written. -/
  | refused
  | other (reason : Text)
  deriving Repr, DecidableEq

/-- The wording of the error, for a file at a path. A directory can be opened, but not read. -/
def FileError.message (path : Text) : FileError → Text
  | .missing => utf8 "open " ++ path ++ utf8 ": no such file or directory"
  | .notADirectory => utf8 "open " ++ path ++ utf8 ": not a directory"
  | .isADirectory => utf8 "read " ++ path ++ utf8 ": is a directory"
  | .refused => utf8 "operation not permitted"
  | .other reason => utf8 "open " ++ path ++ utf8 ": " ++ reason

/-- How files are read. -/
abbrev FileReader := Text → Except FileError Text

namespace Path

/-- The parts of a path between its slashes. -/
def parts (path : Text) : List Text := Text.splitOn Byte.slash path

/-- Whether a path starts at the root. -/
def isAbsolute (path : Text) : Bool := path.head? == some Byte.slash

/-- Follow the parts of a path from a place, by name only: an empty part and `.` stay, and `..` goes
    up. -/
def follow (place : List Text) : List Text → List Text
  | [] => place
  | part :: rest =>
    if part.isEmpty || part == utf8 "." then follow place rest
    else if part == utf8 ".." then follow place.dropLast rest
    else follow (place ++ [part]) rest

/-- The place a path names, seen from a working directory. -/
def resolve (home : List Text) (path : Text) : List Text :=
  follow (if isAbsolute path then [] else home) (parts path)

/-- The absolute path of a place. -/
def absolute (place : List Text) : Text := Byte.slash :: Text.join [Byte.slash] place

end Path

end ModifierToggle
