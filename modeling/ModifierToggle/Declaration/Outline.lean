import ModifierToggle.Declaration.Model
import ModifierToggle.Text.Quoted
import ModifierToggle.Yaml.Record

set_option autoImplicit false

/-! # Outline files

An outline is how a completion engine hands over what it knows about a file: a YAML document with
the classes of the file, their members, and for each of them its lines, flags and access. Anything
that is no built-in access is the name of a custom one. -/

namespace ModifierToggle.Outline

open Yaml

/-! ## The document -/

/-- A class or member as the document gives it. -/
structure Entry where
  name : Text := []
  lines : List Int := []
  flags : List Text := []
  access : Text := []
  accessName : Text := []

/-- A class with its members; a null entry stays one. -/
structure ClassEntry where
  entry : Entry := {}
  members : List (Option Entry) := []

/-- An outline as the document gives it. -/
structure Document where
  path : Text := []
  language : Text := []
  classes : List (Option ClassEntry) := []

/-- The names of the fields of an entry. -/
def entryFields : List Text :=
  [utf8 "name", utf8 "lines", utf8 "flags", utf8 "access", utf8 "namespace"]

/-- Read a field of an entry and set it. -/
def Entry.set (p : Site) (e : Entry) (name : Text) (n : Node) : Reading Entry :=
  if name == utf8 "name" then Reader.field Reader.text p n e fun v => { e with name := v }
  else if name == utf8 "lines" then
    Reader.field (Reader.list Reader.int) p n e fun v => { e with lines := v }
  else if name == utf8 "flags" then
    Reader.field (Reader.list Reader.text) p n e fun v => { e with flags := v }
  else if name == utf8 "access" then Reader.field Reader.text p n e fun v => { e with access := v }
  else Reader.field Reader.text p n e fun v => { e with accessName := v }

/-- How an entry is read. -/
def Entry.shape : Shape Entry := { fields := entryFields, default := {}, set := Entry.set }

/-- Read a field of a class and set it. -/
def ClassEntry.set (p : Site) (c : ClassEntry) (name : Text) (n : Node) :
    Reading ClassEntry :=
  if name == utf8 "members" then
    Reader.field (Reader.list (Reader.orNull (Reader.record Entry.shape))) p n c fun v =>
      { c with members := v }
  else do
    let entry ← Entry.set p c.entry name n
    return { c with entry }

/-- How a class is read. All but its members belongs to its entry. -/
def ClassEntry.shape : Shape ClassEntry :=
  { fields := entryFields ++ [utf8 "members"], ofPart := entryFields, default := {}
    set := ClassEntry.set }

/-- Read a field of an outline and set it. -/
def Document.set (p : Site) (d : Document) (name : Text) (n : Node) : Reading Document :=
  if name == utf8 "path" then Reader.field Reader.text p n d fun v => { d with path := v }
  else if name == utf8 "language" then
    Reader.field Reader.text p n d fun v => { d with language := v }
  else
    Reader.field (Reader.list (Reader.orNull (Reader.record ClassEntry.shape))) p n d fun v =>
      { d with classes := v }

/-- How an outline is read. -/
def Document.shape : Shape Document :=
  { fields := [utf8 "path", utf8 "language", utf8 "classes"], default := {}, set := Document.set }

/-! ## Checking -/

/-- What is wrong with an entry. -/
inductive EntryError where
  | notARange (name : Text) (lines : List Int)
  | emptyRange (name : Text) (lines : List Int)
  | unknownFlag (name flag : Text)
  deriving Repr, DecidableEq

/-- A list of numbers, between brackets. -/
def renderLines (lines : List Int) : Text :=
  utf8 "[" ++ Text.join (utf8 " ") (lines.map Decimal.ofInt) ++ utf8 "]"

/-- The wording of the error. -/
def EntryError.message : EntryError → Text
  | .notARange name lines =>
    name.quoted ++ utf8 ": lines must be [from, to], got " ++ renderLines lines
  | .emptyRange name lines => name.quoted ++ utf8 ": invalid line range " ++ renderLines lines
  | .unknownFlag name flag => name.quoted ++ utf8 ": unknown flag " ++ flag.quoted

/-- The union of flags given by name. -/
def flagsOf (name : Text) (flags : List Text) : Except EntryError Flags :=
  flags.foldlM (fun fs flag =>
    match Flags.ofName? flag with
    | some f => .ok (fs.union f)
    | none => .error (.unknownFlag name flag)) ⟨0⟩

/-- The declaration an entry describes. -/
def Entry.toMember (e : Entry) : Except EntryError Member :=
  match e.lines with
  | [first, last] =>
    if first < 0 || last < first then .error (.emptyRange e.name e.lines)
    else
      match flagsOf e.name e.flags with
      | .error err => .error err
      | .ok flags =>
        let m : Member :=
          { name := e.name, lineFrom := first, lineTo := last, flags, accessName := e.accessName }
        .ok <|
          if e.access.isEmpty then m
          else match Access.ofName? e.access with
            | some a => { m with access := a }
            | none => { m with access := .custom, accessName := e.access }
  | _ => .error (.notARange e.name e.lines)

/-- Why a text is no outline. -/
inductive Error where
  | yaml
  /-- Reading the text breaks down. -/
  | breakdown
  | badClass (index : Nat) (cause : EntryError)
  | badMember (index member : Nat) (cause : EntryError)
  deriving Repr, DecidableEq

/-- The wording of the error. -/
def Error.message : Error → Text
  | .yaml => utf8 "parsing YAML"
  | .breakdown => []
  | .badClass i cause => utf8 "class " ++ Decimal.ofNat i ++ utf8 ": " ++ cause.message
  | .badMember i j cause =>
    utf8 "class " ++ Decimal.ofNat i ++ utf8 " member " ++ Decimal.ofNat j ++ utf8 ": "
      ++ cause.message

/-- The members of class number `i`, counted from `j` on. Null entries count, but are left out. -/
def membersOf (i : Nat) : Nat → List (Option Entry) → Except Error (List Member)
  | _, [] => .ok []
  | j, none :: rest => membersOf i (j + 1) rest
  | j, some e :: rest =>
    match e.toMember with
    | .error cause => .error (.badMember i j cause)
    | .ok m => (membersOf i (j + 1) rest).map (m :: ·)

/-- The classes of an outline, counted from `i` on. Null entries count, but are left out. -/
def classesOf : Nat → List (Option ClassEntry) → Except Error (List ClassModel)
  | _, [] => .ok []
  | i, none :: rest => classesOf (i + 1) rest
  | i, some c :: rest =>
    match c.entry.toMember with
    | .error cause => .error (.badClass i cause)
    | .ok m =>
      match membersOf i 0 c.members with
      | .error e => .error e
      | .ok members =>
        (classesOf (i + 1) rest).map fun cs =>
          { declaration := { m with flags := m.flags.union .classFlag }, members } :: cs

end ModifierToggle.Outline

namespace ModifierToggle

/-- Read the model of a file from an outline. -/
def FileModel.ofOutline (t : Text) : Except Outline.Error FileModel :=
  match Outline.Document.shape.ofText t with
  | .error .refused => .error .yaml
  | .error .breakdown => .error .breakdown
  | .ok d =>
    (Outline.classesOf 0 d.classes).map fun classes =>
      { path := d.path, language := d.language, classes }

end ModifierToggle
