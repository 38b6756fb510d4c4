import ModifierToggle.Yaml.ScalarText

set_option autoImplicit false

/-! # YAML tokens

A stream is first cut into tokens. Indentation and the colon after a key that is not announced
become tokens too: `Scan` keeps the indentation of the open block collections and, per flow level,
the position of what may turn out to be a key, and inserts the tokens for them when it is clear that
they are there.

A scan ends with the stream or at a fault. A token is handed on only when two more are known to
follow it and it is clear whether it starts a key, so a fault also hides tokens before it. -/

namespace ModifierToggle.Yaml

/-- A token of a stream. -/
inductive Token where
  | versionDirective (major minor : Nat)
  | tagDirective (handle expansion : Text)
  | documentStart
  | documentEnd
  | streamEnd
  | blockSequenceStart
  | blockMappingStart
  | blockEnd
  | flowSequenceStart
  | flowSequenceEnd
  | flowMappingStart
  | flowMappingEnd
  | blockEntry
  | flowEntry
  | key
  | value
  | reference (name : Text)
  | anchor (name : Text)
  | tag (handle suffix : Text)
  | scalar (plain : Bool) (text : Text)
  deriving Repr, DecidableEq

/-- What may turn out to be a key: the number of its first token, where it starts, and whether
    nothing but a key may stand there. -/
structure KeyStart where
  token : Nat
  index : Nat
  line : Nat
  column : Nat
  required : Bool

/-- The state of a scan. -/
structure Scan where
  cursor : Cursor
  /-- The tokens found, the last one first. -/
  found : List Token := []
  /-- The number of tokens found. -/
  count : Nat := 0
  /-- The column of the innermost block collection; -1 outside of all. -/
  indent : Int := -1
  outerIndents : List Int := []
  /-- Whether a key that is not announced may start here. -/
  keyAllowed : Bool := true
  candidate : Option KeyStart := none
  /-- The candidates of the flow collections around the innermost one, and of the block around
      them. -/
  outerCandidates : List (Option KeyStart) := []
  ended : Bool := false

namespace Scan

/-- Whether the scan is inside a flow collection. -/
def inFlow (s : Scan) : Bool := !s.outerCandidates.isEmpty

/-- Add a token at the end. -/
def push (s : Scan) (t : Token) : Scan := { s with found := t :: s.found, count := s.count + 1 }

/-- Add a token in front of the one with number `n`. -/
def insert (s : Scan) (n : Nat) (t : Token) : Scan :=
  let later := s.count - n
  { s with found := s.found.take later ++ t :: s.found.drop later, count := s.count + 1 }

/-- Add a token for what has just been passed. -/
def pushAt (s : Scan) (c : Cursor) (t : Token) : Scan := { s.push t with cursor := c }

/-! ## Keys that are not announced -/

/-- Give up the candidate; a fault when a key was required there. -/
def dropCandidate (s : Scan) : Option Scan :=
  match s.candidate with
  | some k => if k.required then none else some { s with candidate := none }
  | none => some s

/-- Remember this place as the start of a key, if one is allowed here. -/
def markCandidate (s : Scan) : Option Scan :=
  if s.keyAllowed then
    s.dropCandidate.map fun s =>
      let start : KeyStart :=
        { token := s.count, index := s.cursor.index, line := s.cursor.line
          column := s.cursor.column
          required := !s.inFlow && s.indent == (s.cursor.column : Int) }
      { s with candidate := some start }
  else some s

/-! ## Indentation -/

/-- How deep block collections and flow collections may be nested. -/
def depthLimit : Nat := 10000

/-- Open a block collection at a column, unless one is open there. Its token goes in front of the
    token with number `before`, or to the end. -/
def openBlock (s : Scan) (column : Nat) (before : Option Nat) (t : Token) : Option Scan :=
  if s.inFlow || (column : Int) ≤ s.indent then some s
  else if depthLimit ≤ s.outerIndents.length then none
  else
    let opened := match before with
      | some n => s.insert n t
      | none => s.push t
    some { opened with indent := column, outerIndents := s.indent :: s.outerIndents }

/-- Close the block collections that are indented further than a column. -/
def closeBlocks (s : Scan) (column : Int) : Scan :=
  if s.inFlow then s else go s (s.outerIndents)
where
  /-- Close collections from the inside out. -/
  go (s : Scan) : List Int → Scan
    | [] => s
    | outer :: rest =>
      if s.indent > column then
        go { s.push .blockEnd with indent := outer, outerIndents := rest } rest
      else s

/-! ## White space and comments between tokens -/

/-- How far ahead of a place a comment is looked for. -/
def commentReach : Nat := 512

/-- How many of the characters are blanks, or one-byte line breaks where `breaks` holds. -/
def whiteLength (breaks : Bool) (chars : List Char) : Nat :=
  (chars.takeWhile fun ch => isBlank ch || (breaks && (ch == '\n' || ch == '\r'))).length

/-- Pass `n` characters of white space. -/
def passWhite : Nat → Nat → Cursor → Option Cursor
  | 0, _, c => some c
  | _, 0, c => some c
  | fuel + 1, n + 1, c =>
    if c.atBreak then
      match c.passBreak with
      | some (_, next) => passWhite fuel (n + 1 - (next.index - c.index)) next
      | none => none
    else passWhite fuel n c.skip

/-- Pass a comment, with the comments that follow it after nothing but white space within reach. -/
def passComments : Nat → Cursor → Option Cursor
  | 0, c => some c
  | fuel + 1, c => do
    let c ← c.skipLine
    let white := whiteLength true (c.rest.take commentReach)
    let c ← c.need (if white == 0 then 2 else min (white + 1) commentReach)
    if 0 < white && white < commentReach && c.peek? white == some '#' then
      let c ← passWhite c.fuel white c
      passComments fuel c
    else some c

/-- Pass a comment on the line of the token just scanned. A dash has none. -/
def passLineComment (s : Scan) : Option Scan :=
  if s.found.head? == some .blockEntry || s.cursor.fresh then some s
  else do
    let blanks := whiteLength false (s.cursor.rest.take commentReach)
    let c ← s.cursor.need (min (blanks + 1) commentReach)
    let c ←
      if blanks < commentReach && c.peek? blanks == some '#' then (c.skipN blanks).skipLine
      else some c
    return { s with cursor := c }

/-- Pass everything up to the next token: blanks, where tabs count only if no key may start here,
    comments, and line breaks, after which a key may start. Where a byte order mark came first when
    characters were last read in, a character is passed at the start of every line. -/
def passToToken : Nat → Scan → Option Scan
  | 0, s => some s
  | fuel + 1, s => do
    let c ← s.cursor.need 1
    let c := if c.column == 0 && c.marked then c.skip else c
    let c ← c.skipWhile fun ch => ch == ' ' || (ch == '\t' && (s.inFlow || !s.keyAllowed))
    let c ← if c.isAt '#' then passComments c.fuel c else some c
    if c.atBreak then
      match c.passBreak with
      | none => none
      | some (_, c) =>
        passToToken fuel { s with cursor := c, keyAllowed := s.keyAllowed || !s.inFlow }
    else some { s with cursor := c }

/-! ## Directives, anchors, tags -/

/-- Read a number of at most two digits. -/
def readNumber (c : Cursor) : Option (Nat × Cursor) := do
  let (digits, c) ← c.takeWhile Char.isDigit
  if digits.isEmpty || 2 < digits.length then none
  else some (digits.foldl (fun n ch => n * 10 + (ch.toNat - 0x30)) 0, c)

/-- Whether a character may stand in the address part of a tag. -/
def isAddressChar (ch : Char) : Bool :=
  isNameChar ch || ";/?:@&=+$,.!~*'()[]%".toList.contains ch

/-- Read `n` bytes written as a percent sign and two digits each. The bytes after the first have to
    continue a UTF-8 sequence. -/
def readPercentBytes (first : Bool) : Nat → Cursor → Option (Text × Cursor)
  | 0, c => some ([], c)
  | n + 1, c => do
    let c ← c.need 3
    if !c.isAt '%' then none
    let value ← hexNumber? ((c.rest.drop 1).take 2)
    if (c.rest.take 3).length < 3 then none
    if !first && !(0x80 ≤ value && value ≤ 0xBF) then none
    let (bytes, c) ← readPercentBytes false n (c.skipN 3)
    return (UInt8.ofNat value :: bytes, c)

/-- Read one character of the address part of a tag that is written with percent signs. -/
def readPercentChar (c : Cursor) : Option (Text × Cursor) := do
  let c ← c.need 3
  let value ← hexNumber? ((c.rest.drop 1).take 2)
  if (c.rest.take 3).length < 3 then none
  let n := sequenceLength value
  if n == 0 then none
  readPercentBytes true n c

/-- Read the address part of a tag. -/
def readAddress : Nat → Text → Cursor → Option (Text × Cursor)
  | 0, acc, c => some (acc, c)
  | fuel + 1, acc, c => do
    let c ← c.need 1
    match c.next? with
    | none => some (acc, c)
    | some ch =>
      if ch == '%' then
        match readPercentChar c with
        | some (bytes, c) => readAddress fuel (acc ++ bytes) c
        | none => none
      else if isAddressChar ch then readAddress fuel (acc ++ Utf8.encode ch) c.skip
      else some (acc, c)

/-- Read a tag handle: an exclamation mark, name characters and perhaps another exclamation mark. -/
def readHandle (c : Cursor) : Option (List Char × Cursor) := do
  let c ← c.need 1
  if !c.isAt '!' then none
  let (name, c) ← c.skip.takeWhile isNameChar
  if c.isAt '!' then return ('!' :: name ++ ['!'], c.skip) else return ('!' :: name, c)

/-- Read the version that a directive asks for. -/
def readVersion (c : Cursor) : Option (Token × Cursor) := do
  let (major, c) ← readNumber c
  if !c.isAt '.' then none
  let (minor, c) ← readNumber c.skip
  return (.versionDirective major minor, c)

/-- Read the tag handle that a directive declares, and what it expands to. -/
def readHandleRule (c : Cursor) : Option (Token × Cursor) := do
  let (handle, c) ← readHandle c
  if !(handle == ['!'] || handle.length > 1 && handle.getLast? == some '!') then none
  let c ← c.need 1
  if !c.atBlank then none
  let c ← c.skipWhile isBlank
  let (expansion, c) ← readAddress c.fuel [] c
  if expansion.isEmpty || !c.atWhite then none
  return (.tagDirective (Text.ofChars handle) expansion, c)

/-- Read a directive, after its percent sign, up to the end of its line. -/
def readDirective (c : Cursor) : Option (Token × Cursor) := do
  let (name, c) ← c.takeWhile isNameChar
  if name.isEmpty || !c.atWhite then none
  let c ← c.skipWhile isBlank
  let (token, c) ←
    if name == "YAML".toList then readVersion c
    else if name == "TAG".toList then readHandleRule c
    else none
  let c ← c.passLineEnd
  return (token, c)

/-- Read the name of an anchor or alias, after its sign. -/
def readName (c : Cursor) : Option (Text × Cursor) := do
  let (name, c) ← c.takeWhile isNameChar
  let closed := c.atWhite || "?:,]\x7d%@`".toList.any c.isAt
  if name.isEmpty || !closed then none else some (Text.ofChars name, c)

/-- Read a tag. -/
def readTag (c : Cursor) : Option (Token × Cursor) := do
  let c ← c.need 2
  let (token, c) ←
    if c.peek? 1 == some '<' then
      match readAddress c.fuel [] (c.skipN 2) with
      | none => none
      | some (address, c) =>
        if address.isEmpty || !c.isAt '>' then none else some (Token.tag [] address, c.skip)
    else
      match readHandle c with
      | none => none
      | some (handle, c) =>
        if handle.length > 1 && handle.getLast? == some '!' then
          match readAddress c.fuel [] c with
          | none => none
          | some (suffix, c) =>
            if suffix.isEmpty then none else some (Token.tag (Text.ofChars handle) suffix, c)
        else
          (readAddress c.fuel (Text.ofChars (handle.drop 1)) c).map fun (suffix, c) =>
            if suffix.isEmpty then (Token.tag [] (utf8 "!"), c)
            else (Token.tag (utf8 "!") suffix, c)
  let c ← c.need 1
  if !c.atWhite then none
  return (token, c)

/-! ## One token after the other -/

/-- A token that ends all block collections and starts at the margin. -/
def outermost (s : Scan) : Option Scan :=
  (s.closeBlocks (-1)).dropCandidate.map fun s => { s with keyAllowed := false }

/-- Scan a colon. If a candidate for a key is still good, it was one; otherwise the key was
    announced or is empty. -/
def scanValue (s : Scan) : Option Scan := do
  let good ←
    match s.candidate with
    | none => some none
    | some k =>
      if k.line < s.cursor.line || k.index + 1024 < s.cursor.index then
        if k.required then none else some none
      else some (some k)
  let s ←
    match good with
    | some k =>
      ((s.insert k.token .key).openBlock k.column (some k.token) .blockMappingStart).map fun s =>
        { s with candidate := none, keyAllowed := false }
    | none =>
      let s := { s with candidate := none }
      if s.inFlow then some { s with keyAllowed := false }
      else if !s.keyAllowed then none
      else
        (s.openBlock s.cursor.column none .blockMappingStart).map fun s =>
          { s with keyAllowed := true }
  return s.pushAt s.cursor.skip .value

/-- Whether a plain scalar can start here. -/
def startsPlain (s : Scan) (ch : Char) : Bool :=
  let after := s.cursor.peek? 1
  !(isBlank ch || isBreak ch || "-?:,[]\x7b\x7d#&*!|>'\"%@`".toList.contains ch)
    || (ch == '-' && !after.any isBlank)
    || (!s.inFlow && (ch == '?' || ch == ':') && !isBlankOrEnd after)

/-- Scan a token that stands for something about the document as a whole, if one starts here: a
    directive or a document marker. -/
def scanOutermost? (s : Scan) (ch : Char) : Option (Option Scan) :=
  let c := s.cursor
  if c.column == 0 && ch == '%' then
    some do
      let s ← s.outermost
      let (token, c) ← readDirective c.skip
      return s.pushAt c token
  else if c.atMarker '-' then some (s.outermost.map (·.pushAt (c.skipN 3) .documentStart))
  else if c.atMarker '.' then some (s.outermost.map (·.pushAt (c.skipN 3) .documentEnd))
  else none

/-- Scan one token of a document, of which `ch` is the first character. -/
def scanToken (s : Scan) (ch : Char) : Option Scan :=
  let c := s.cursor
  let whiteAfter := isBlankOrEnd (c.peek? 1)
  let openFlow (t : Token) : Option Scan :=
    if depthLimit ≤ s.outerCandidates.length then none
    else
      s.markCandidate.map fun s =>
        { s.pushAt c.skip t with
          keyAllowed := true, candidate := none
          outerCandidates := s.candidate :: s.outerCandidates }
  let closeFlow (t : Token) : Option Scan :=
    s.dropCandidate.map fun s =>
      { s.pushAt c.skip t with
        keyAllowed := false
        candidate := s.outerCandidates.head?.getD s.candidate
        outerCandidates := s.outerCandidates.drop 1 }
  let marked (t : Scan → Option (Token × Cursor)) : Option Scan := do
    let s ← s.markCandidate
    let (token, c) ← t s
    return { s.pushAt c token with keyAllowed := false }
  if ch == '[' then openFlow .flowSequenceStart
  else if ch == '{' then openFlow .flowMappingStart
  else if ch == ']' then closeFlow .flowSequenceEnd
  else if ch == '}' then closeFlow .flowMappingEnd
  else if ch == ',' then
    s.dropCandidate.map fun s => { s.pushAt c.skip .flowEntry with keyAllowed := true }
  else if ch == '-' && whiteAfter then
    if !s.inFlow && !s.keyAllowed then none
    else
      ((s.openBlock c.column none .blockSequenceStart).bind dropCandidate).map fun s =>
        { s.pushAt c.skip .blockEntry with keyAllowed := true }
  else if ch == '?' && (s.inFlow || whiteAfter) then
    if !s.inFlow && !s.keyAllowed then none
    else
      ((s.openBlock c.column none .blockMappingStart).bind dropCandidate).map fun s =>
        { s.pushAt c.skip .key with keyAllowed := !s.inFlow }
  else if ch == ':' && (s.inFlow || whiteAfter) then s.scanValue
  else if ch == '*' then marked fun _ => (readName c.skip).map fun (n, c) => (.reference n, c)
  else if ch == '&' then marked fun _ => (readName c.skip).map fun (n, c) => (.anchor n, c)
  else if ch == '!' then marked fun _ => readTag c
  else if (ch == '|' || ch == '>') && !s.inFlow then do
    let s ← s.dropCandidate
    let (text, c) ← readBlock (ch == '|') s.indent c.skip
    return { s.pushAt c (.scalar false (Text.ofChars text)) with keyAllowed := true }
  else if ch == '\'' || ch == '"' then
    marked fun _ =>
      (readQuoted (ch == '\'') c.fuel [] c.skip).map fun (text, c) =>
        (.scalar false (Text.ofChars text), c)
  else if s.startsPlain ch then do
    let s ← s.markCandidate
    let (text, broken, c) ← readPlain s.inFlow (s.indent + 1).toNat c.fuel [] {} c
    return { s.pushAt c (.scalar true (Text.ofChars text)) with keyAllowed := broken }
  else none

/-- Go on to the next token and scan it. -/
def step (s : Scan) : Option Scan := do
  let s ← passToToken s.cursor.fuel s
  let s := s.closeBlocks s.cursor.column
  let c ← s.cursor.need 4
  let s := { s with cursor := c }
  match c.next? with
  | none => s.outermost.map fun s => { s.push .streamEnd with ended := true }
  | some ch =>
    match s.scanOutermost? ch with
    | some s? => s?
    | none => (s.scanToken ch).bind passLineComment

/-- Whether it is still open if something is a key. -/
def undecided (s : Scan) (k : KeyStart) : Bool :=
  k.required || (k.line == s.cursor.line && s.cursor.index ≤ k.index + 1024)

/-- The tokens that have been handed on when a scan gets no further. -/
def handedOn (s : Scan) : List Token :=
  let held := (s.candidate :: s.outerCandidates).filterMap (·.filter s.undecided)
  s.found.reverse.take ((held.map (·.token)).foldl min (s.count - 2))

/-- Scan to the end of the stream or to a fault. -/
def run : Nat → Scan → List Token
  | 0, s => s.found.reverse
  | fuel + 1, s =>
    match s.step with
    | none => s.handedOn
    | some s => if s.ended then s.found.reverse else run fuel s

end Scan

/-- The tokens of a stream, up to a fault if there is one. A stream without a fault ends with
    `streamEnd`. -/
def tokens (s : Stream) : List Token :=
  Scan.run (s.chars.length + 2) { cursor := .start s }

end ModifierToggle.Yaml
