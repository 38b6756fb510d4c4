import ModifierToggle.EditorConfig.Document
import ModifierToggle.EditorConfig.Pattern
import ModifierToggle.File.Basic

set_option autoImplicit false

/-! # The line ending of a file

Which line ending a file is saved with is a matter of the editor settings files in its directory and
in those above. Closer ones count first, up to one that says it is the last; in each of them, later
sections. A file that cannot be read or understood leaves the question open for good: then no line
ending is settled, whatever other files say. -/

namespace ModifierToggle.EditorConfig

/-- The line ending that a section gives to a path. -/
def Section.ending (s : Section) (path : Text) : Except PatternError Text :=
  (Pattern.applies s.pattern path).map fun applies =>
    if applies then ((s.value? (utf8 "end_of_line")).getD []).lower else []

/-- The line ending that a document gives to a path: the last one that a section gives. -/
def Document.ending (d : Document) (path : Text) : Except PatternError Text :=
  (d.rules.reverse.mapM (Section.ending · path)).map fun endings =>
    (endings.find? (!·.isEmpty)).getD []

/-- The places of the directories above a place, the closest first. -/
def directories (place : List Text) : List (List Text) :=
  (List.range place.length).reverse.map place.take

/-- The line ending settled by the editor settings files in some directories, for a file at a place.
    A property without its form spoils the answer only after all files have been looked at. -/
def endingFrom (read : FileReader) (place : List Text) :
    List (List Text) → Except PatternError Text
  | [] => .ok []
  | directory :: rest =>
    match read (Path.absolute (directory ++ [utf8 ".editorconfig"])) with
    | .error .missing => endingFrom read place rest
    | .error _ => .error .malformed
    | .ok contents =>
      match Document.ofText? contents with
      | none => .error .malformed
      | some d =>
        match d.ending (Path.absolute (place.drop directory.length)) with
        | .error e => .error e
        | .ok ending =>
          match if d.isRoot then .ok [] else endingFrom read place rest with
          | .error e => .error e
          | .ok outer =>
            if d.rules.all (·.isWellFormed) then .ok (if ending.isEmpty then outer else ending)
            else .error .malformed

/-- The name of a line ending. -/
def ofName (name : Text) : Text :=
  if name == utf8 "lf" then [Byte.newline]
  else if name == utf8 "crlf" then [Byte.carriageReturn, Byte.newline]
  else if name == utf8 "cr" then [Byte.carriageReturn]
  else []

/-- The line ending that the file at a place is saved with; empty when none is settled. `none` when
    looking for it breaks down. -/
def lineEnding? (read : FileReader) (place : List Text) : Option Text :=
  match endingFrom read place (directories place) with
  | .ok name => some (ofName name)
  | .error .malformed => some []
  | .error .breakdown => none

end ModifierToggle.EditorConfig
