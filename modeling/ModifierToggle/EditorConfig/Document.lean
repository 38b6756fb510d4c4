import ModifierToggle.Text.LetterCase
import ModifierToggle.Text.Decimal

set_option autoImplicit false

/-! # Editor settings files

A file named `.editorconfig` holds settings for the files below its directory: properties in
sections, where the heading of a section is a pattern for file names. Before the first section a
property may say that the directories above are not to be looked at.

Every line is empty, a comment, a heading or a property. A file with any other line is malformed. -/

namespace ModifierToggle.EditorConfig

/-- The properties of the files that match a pattern, in the order of their first mention. -/
structure Section where
  pattern : Text
  properties : List (Text × Text)
  deriving Repr, DecidableEq

/-- An editor settings file. -/
structure Document where
  /-- The properties before the first section. -/
  preamble : List (Text × Text) := []
  sections : List Section := []
  /-- The number of properties without a name of their own below the last heading. -/
  unnamed : Nat := 0
  deriving Repr, DecidableEq

/-! ## Lines -/

/-- Whether a byte starts a comment. -/
def startsComment (b : UInt8) : Bool := b == 0x23 || b == 0x3B

/-- A value without the comment behind it. -/
def withoutComment (value : Text) : Text := Text.trim (value.takeWhile (!startsComment ·))

/-- A value without the quotes around it. -/
def withoutQuotes (value : Text) : Text :=
  match value with
  | q :: rest =>
    let enclosed := Text.findByte? q rest == some (rest.length - 1)
    if (q == 0x22 || q == 0x27) && enclosed then rest.dropLast else value
  | [] => []

/-- The quotes at the front of a text that it may be enclosed in: three double quotes, a backquote,
    or one double quote where `single` allows it. -/
def quoteOf (single : Bool) (t : Text) : Text :=
  let three := List.replicate 3 0x22
  if three.isPrefixOf t then three
  else match t with
    | 0x60 :: _ => [0x60]
    | 0x22 :: _ => if single then [0x22] else []
    | _ => []

/-- The quotes that the name of a property is enclosed in. Three of them count as such only on a
    line, its end included, that is long enough for six and a byte more. -/
def nameQuote (atEnd : Bool) (line : Text) : Text :=
  match quoteOf true line with
  | [0x22, 0x22, 0x22] =>
    if 6 < line.length + (if atEnd then 0 else 1) then List.replicate 3 0x22 else [0x22]
  | quote => quote

/-- Whether a byte stands between the name and the value of a property. -/
def isDelimiter (b : UInt8) : Bool := b == 0x3D || b == Byte.colon

/-- The name of a property and what stands behind the first `=` or `:`. A name may be in quotes. -/
def property? (atEnd : Bool) (line : Text) : Option (Text × Text) :=
  match nameQuote atEnd line with
  | [] => do
    let i ← line.findIdx? isDelimiter
    if i = 0 then none else some (Text.trim (line.take i), line.drop (i + 1))
  | quote => do
    let rest := line.drop quote.length
    let i ← Text.find? quote rest
    let behind := rest.drop (i + quote.length)
    let j ← behind.findIdx? isDelimiter
    let name := Text.trim (rest.take i)
    if name.isEmpty then none else some (name, behind.drop (j + 1))

/-- Why a value goes on in the next line. -/
inductive Unfinished where
  /-- It ends in a backslash. -/
  | continued
  /-- The quotes around it are open. -/
  | quoted (quote : Text)

/-- The text up to the last occurrence of a quote, which reads the same in both directions. -/
def beforeLast? (quote t : Text) : Option Text :=
  (Text.find? quote t.reverse).map fun i => t.take (t.length - i - quote.length)

/-- The value of a property, or as much of it as its first line has. At the end of a file three
    quotes on their own open nothing. -/
def readValue (atEnd : Bool) (rest : Text) : Text × Option Unfinished :=
  let value := Text.trimStart rest
  match quoteOf false value with
  | [] => plain value
  | quote =>
    if atEnd && value == quote && quote.length == 3 then plain value
    else
      let inner := value.drop quote.length
      match beforeLast? quote inner with
      | some whole => (whole, none)
      | none => (inner ++ [Byte.newline], some (.quoted quote))
where
  plain (value : Text) : Text × Option Unfinished :=
    let value := value.trim
    if value.getLast? == some 0x5C then (value.dropLast, some .continued)
    else (withoutQuotes (withoutComment value), none)

/-- The heading of what is not in a section. -/
def preambleHeading : Text := utf8 "DEFAULT"

/-- The pattern of a heading: the text up to the last closing bracket. -/
def heading? (line : Text) : Option Text :=
  match line with
  | 0x5B :: rest =>
    match Text.findByte? 0x5D rest.reverse with
    | none => none
    | some i =>
      let pattern := rest.take (rest.length - 1 - i)
      if pattern.isEmpty then none else some pattern
  | _ => none

/-! ## Documents -/

namespace Document

/-- Set a property. One that is there already keeps its place. -/
def setProperty (p : Text × Text) : List (Text × Text) → List (Text × Text)
  | [] => [p]
  | q :: rest => if q.1 == p.1 then p :: rest else q :: setProperty p rest

/-- Add a property to the section with a heading, or to the preamble. A dash is no name: such
    properties are numbered. -/
def addProperty (d : Document) (heading : Option Text) (p : Text × Text) : Document :=
  let isUnnamed := p.1 == [Byte.minus]
  let d := if isUnnamed then { d with unnamed := d.unnamed + 1 } else d
  let p := if isUnnamed then (utf8 "#" ++ Decimal.ofNat d.unnamed, p.2) else p
  match heading with
  | none => { d with preamble := setProperty p d.preamble }
  | some pattern =>
    { d with
      sections := d.sections.map fun s =>
        if s.pattern == pattern then { s with properties := setProperty p s.properties } else s }

/-- Add a section, unless there is one with its heading. -/
def addSection (d : Document) (pattern : Text) : Document :=
  if d.sections.any (·.pattern == pattern) then d
  else { d with sections := d.sections ++ [⟨pattern, []⟩] }

/-- Read lines into a document, below a heading; `open?` is a property whose value is not
    complete. -/
def readLines (d : Document) (heading : Option Text) (open? : Option (Unfinished × Text × Text)) :
    List Text → Option Document
  | [] =>
    match open? with
    | none => some d
    | some (.continued, p) => some (d.addProperty heading p)
    | some (.quoted _, _) => none
  | line :: rest =>
    match open? with
    | some (.continued, name, value) =>
      let line := line.trim
      let value := value ++ line
      if line.isEmpty || value.getLast? != some 0x5C then
        readLines (d.addProperty heading (name, value)) heading none rest
      else readLines d heading (some (.continued, name, value.dropLast)) rest
    | some (.quoted quote, name, value) =>
      match beforeLast? quote line with
      | some last => readLines (d.addProperty heading (name, value ++ last)) heading none rest
      | none =>
        readLines d heading (some (.quoted quote, name, value ++ line ++ [Byte.newline])) rest
    | none =>
      let line := Text.trimStart line
      match line with
      | [] => readLines d heading none rest
      | first :: _ =>
        if startsComment first then readLines d heading none rest
        else if first == 0x5B then
          match heading? line with
          | none => none
          | some pattern =>
            let d := { d with unnamed := 0 }
            if pattern == preambleHeading then readLines d none none rest
            else readLines (d.addSection pattern) (some pattern) none rest
        else
          match property? rest.isEmpty line with
          | none => none
          | some (name, behind) =>
            match readValue rest.isEmpty behind with
            | (value, none) => readLines (d.addProperty heading (name, value)) heading none rest
            | (value, some u) => readLines d heading (some (u, name, value)) rest

/-- A text without the mark of its encoding that some editors put in front. -/
def withoutMark : Text → Text
  | 0xEF :: 0xBB :: 0xBF :: rest => rest
  | 0xFE :: 0xFF :: rest => rest
  | 0xFF :: 0xFE :: rest => rest
  | t => t

/-- Read an editor settings file. -/
def ofText? (t : Text) : Option Document :=
  readLines {} none none (Text.splitOn Byte.newline (withoutMark t))

/-- The name in the first mention of another property, `%(name)s`. -/
def mentioned? : Text → Option Text
  | [] => none
  | b :: rest =>
    match b, rest with
    | 0x25, 0x28 :: inner =>
      let name := inner.takeWhile (· != 0x29)
      if !name.isEmpty && [0x29, 0x73].isPrefixOf (inner.drop name.length) then some name
      else mentioned? rest
    | _, _ => mentioned? rest

/-- A value with the values of the properties it mentions in their place, over and over: at most 99
    times, and up to a mention of a property that is not there. -/
def expanded (properties : List (Text × Text)) : Nat → Text → Text
  | 0, value => value
  | fuel + 1, value =>
    match mentioned? value with
    | none => value
    | some name =>
      match properties.lookup name with
      | none => value
      | some other =>
        let mention := utf8 "%(" ++ name ++ utf8 ")s"
        expanded properties fuel (Text.replaceAll mention other value)

/-- The words that stand for yes. -/
def yesWords : List Text :=
  [utf8 "1", utf8 "t", utf8 "T", utf8 "true", utf8 "TRUE", utf8 "True", utf8 "YES", utf8 "yes",
   utf8 "Yes", utf8 "y", utf8 "ON", utf8 "on", utf8 "On"]

/-- Whether the directories above are not to be looked at. -/
def isRoot (d : Document) : Bool :=
  match d.preamble.lookup (utf8 "root") with
  | none => false
  | some value =>
    let properties := setProperty (utf8 "root", value.lower) d.preamble
    yesWords.contains (expanded properties 99 value.lower)

/-- The sections that count; a heading of more than 4096 bytes is passed over. -/
def rules (d : Document) : List Section := d.sections.filter (·.pattern.length ≤ 4096)

end Document

/-! ## Properties of a section -/

namespace Section

/-- The value of a property, of which the last one counts; names are compared in lower case. Names
    of more than 1024 bytes and values of more than 4096 are passed over. -/
def value? (s : Section) (name : Text) : Option Text :=
  (s.properties.reverse.find? fun (n, value) =>
    n.lower == name && n.length ≤ 1024 && value.length ≤ 4096).map (·.2)

/-- Whether a property, if it is given, is unset or one of some words. -/
def allows (s : Section) (name : Text) (good : Text → Bool) : Bool :=
  match s.value? name with
  | none => true
  | some value => value == utf8 "unset" || good value

/-- Whether a text is a truth value. -/
def isTruthValue (value : Text) : Bool :=
  [utf8 "1", utf8 "t", utf8 "T", utf8 "TRUE", utf8 "true", utf8 "True", utf8 "0", utf8 "f",
   utf8 "F", utf8 "FALSE", utf8 "false", utf8 "False"].contains value

/-- Whether the properties with a fixed form have it. -/
def isWellFormed (s : Section) : Bool :=
  s.allows (utf8 "trim_trailing_whitespace") isTruthValue
    && s.allows (utf8 "insert_final_newline") isTruthValue
    && s.allows (utf8 "tab_width") fun value => (Decimal.toInt? value).isSome

end Section

end ModifierToggle.EditorConfig
