import ModifierToggle.Yaml.Cursor

set_option autoImplicit false

/-! # The text of a scalar

A scalar can be written plain, between single or double quotes, or as a block below its header. This
file reads each form and gives the text it stands for. In the plain and quoted forms a single line
break stands for a space, and further ones stand for themselves.

Loops run on a fuel that the length of the stream bounds: every turn passes a character. -/

namespace ModifierToggle.Yaml

/-! ## White space inside a scalar -/

/-- A run of white space: its blanks up to the first line break, that break, and the breaks after
    it. -/
structure White where
  blanks : List Char := []
  firstBreak : Option (List Char) := none
  moreBreaks : List Char := []

namespace White

/-- What a run of white space between two words stands for. -/
def folded (w : White) : List Char :=
  match w.firstBreak with
  | none => w.blanks
  | some b =>
    if b == ['\n'] then if w.moreBreaks.isEmpty then [' '] else w.moreBreaks
    else b ++ w.moreBreaks

/-- Read a run of white space. With a limit, a tab before that column on a later line is refused. -/
def read (limit : Option Nat) : Nat → White → Cursor → Option (White × Cursor)
  | 0, _, _ => none
  | fuel + 1, w, c => do
    let c ← c.need 1
    match c.next? with
    | none => some (w, c)
    | some ch =>
      if isBlank ch then
        if w.firstBreak.isNone then read limit fuel { w with blanks := w.blanks ++ [ch] } c.skip
        else if ch == '\t' && limit.any (c.column < ·) then none
        else read limit fuel w c.skip
      else if isBreak ch then
        match c.passBreak, w.firstBreak with
        | none, _ => none
        | some (text, c), none => read limit fuel { w with blanks := [], firstBreak := some text } c
        | some (text, c), some _ => read limit fuel { w with moreBreaks := w.moreBreaks ++ text } c
      else some (w, c)

end White

/-! ## Quoted scalars -/

/-- The value of a hexadecimal digit. -/
def hexValue? (ch : Char) : Option Nat :=
  if ch.isDigit then some (ch.toNat - 0x30)
  else if 'a' ≤ ch && ch ≤ 'f' then some (ch.toNat - 0x57)
  else if 'A' ≤ ch && ch ≤ 'F' then some (ch.toNat - 0x37)
  else none

/-- The number that hexadecimal digits stand for. -/
def hexNumber? (digits : List Char) : Option Nat :=
  digits.foldlM (fun n ch => (hexValue? ch).map (n * 16 + ·)) 0

/-- What an escape letter stands for by itself. -/
def simpleEscape? (ch : Char) : Option Char :=
  match ch with
  | '0' => some (Char.ofNat 0)
  | 'a' => some (Char.ofNat 7)
  | 'b' => some (Char.ofNat 8)
  | 't' | '\t' => some '\t'
  | 'n' => some '\n'
  | 'v' => some (Char.ofNat 0x0B)
  | 'f' => some (Char.ofNat 0x0C)
  | 'r' => some '\r'
  | 'e' => some (Char.ofNat 0x1B)
  | ' ' => some ' '
  | '"' => some '"'
  | '\'' => some '\''
  | '\\' => some '\\'
  | 'N' => some (Char.ofNat 0x85)
  | '_' => some (Char.ofNat 0xA0)
  | 'L' => some (Char.ofNat 0x2028)
  | 'P' => some (Char.ofNat 0x2029)
  | _ => none

/-- How many hexadecimal digits an escape letter asks for. -/
def escapeWidth? (ch : Char) : Option Nat :=
  match ch with
  | 'x' => some 2
  | 'u' => some 4
  | 'U' => some 8
  | _ => none

/-- Read an escape sequence. -/
def readEscape (c : Cursor) : Option (Char × Cursor) := do
  let letter ← c.peek? 1
  let c := c.skipN 2
  match simpleEscape? letter with
  | some ch => return (ch, c)
  | none =>
    let width ← escapeWidth? letter
    let c ← c.need width
    let digits := c.rest.take width
    if digits.length < width then none
    let n ← hexNumber? digits
    if (0xD800 ≤ n && n ≤ 0xDFFF) || 0x10FFFF < n then none
    return (Char.ofNat n, c.skipN width)

/-- Read the words of a quoted scalar up to white space or the closing quote. The characters read
    are given backwards, in front of `acc`; the flag says whether an escaped line break ended the
    run. -/
def readQuotedRun (single : Bool) : Nat → List Char → Cursor → Option (List Char × Bool × Cursor)
  | 0, _, _ => none
  | fuel + 1, acc, c => do
    let c ← c.need 2
    match c.next? with
    | none => some (acc, false, c)
    | some ch =>
      if isBlank ch || isBreak ch then some (acc, false, c)
      else if single then
        if ch == '\'' then
          if c.peek? 1 == some '\'' then readQuotedRun single fuel ('\'' :: acc) (c.skipN 2)
          else some (acc, false, c)
        else readQuotedRun single fuel (ch :: acc) c.skip
      else if ch == '"' then some (acc, false, c)
      else if ch == '\\' then
        if (c.peek? 1).any isBreak then
          match (c.need 3).bind (·.skip.passBreak) with
          | some (_, c) => some (acc, true, c)
          | none => none
        else
          match readEscape c with
          | some (e, c) => readQuotedRun single fuel (e :: acc) c
          | none => none
      else readQuotedRun single fuel (ch :: acc) c.skip

/-- Read a quoted scalar from behind its opening quote to behind its closing one. -/
def readQuoted (single : Bool) : Nat → List Char → Cursor → Option (List Char × Cursor)
  | 0, _, _ => none
  | fuel + 1, acc, c => do
    let c ← c.need 4
    if c.atDocumentMarker || c.atEnd then none
    else
      let (acc, escapedBreak, c) ← readQuotedRun single c.fuel acc c
      let c ← c.need 1
      if c.isAt (if single then '\'' else '"') then some (acc.reverse, c.skip)
      else
        let start : White := if escapedBreak then { firstBreak := some [] } else {}
        match White.read none c.fuel start c with
        | none => none
        | some (white, c) => readQuoted single fuel (white.folded.reverse ++ acc) c

/-! ## Plain scalars -/

/-- Whether a character ends a plain scalar, given the one after it. -/
def endsPlain (inFlow : Bool) (ch : Char) (after : Option Char) : Bool :=
  isBlank ch || isBreak ch || (ch == ':' && isBlankOrEnd after)
    || (inFlow && (ch == ',' || ch == '?' || ch == '[' || ch == ']' || ch == '{' || ch == '}'))

/-- The number of characters up to the end of a word of a plain scalar. -/
def plainRun (inFlow : Bool) : List Char → Nat
  | [] => 0
  | ch :: rest => if endsPlain inFlow ch rest.head? then 0 else plainRun inFlow rest + 1

/-- Read a plain scalar whose lines are indented by at least `indent`. The text read so far is given
    backwards, and `white` is the white space passed since. The flag of the answer says whether a
    line break was passed at the end. -/
def readPlain (inFlow : Bool) (indent : Nat) :
    Nat → List Char → White → Cursor → Option (List Char × Bool × Cursor)
  | 0, _, _, _ => none
  | fuel + 1, acc, white, c => do
    let c ← c.need 4
    if c.atDocumentMarker || c.isAt '#' then some (acc.reverse, white.firstBreak.isSome, c)
    else
      let run := c.rest.take (plainRun inFlow c.rest)
      let acc := if run.isEmpty then acc else run.reverse ++ white.folded.reverse ++ acc
      let white := if run.isEmpty then white else {}
      let c ← c.passRun 2 run
      if !(c.atBlank || c.atBreak) then some (acc.reverse, white.firstBreak.isSome, c)
      else
        match White.read (some indent) c.fuel white c with
        | none => none
        | some (white, c) =>
          if !inFlow && c.column < indent then some (acc.reverse, white.firstBreak.isSome, c)
          else readPlain inFlow indent fuel acc white c

/-! ## Block scalars -/

/-- What becomes of the line breaks at the end of a block scalar. -/
inductive Chomping where
  | strip
  | clip
  | keep
  deriving DecidableEq

/-- Pass the empty lines of a block scalar and the indentation of the line after them. `indent` is 0
    while the indentation is yet to be found; `widest` is the widest indentation passed. Gives the
    breaks passed and the widest indentation. -/
def readBlockBreaks (indent : Nat) :
    Nat → Nat → List Char → Cursor → Option (List Char × Nat × Cursor)
  | 0, _, _, _ => none
  | fuel + 1, widest, breaks, c => do
    let c ← c.need 1
    let spaces := c.rest.takeWhile (· == ' ')
    let c ← c.passRun 1 (if indent == 0 then spaces else spaces.take (indent - c.column))
    let widest := max widest c.column
    if (indent == 0 || c.column < indent) && c.isAt '\t' then none
    else if c.atBreak then
      match c.passBreak with
      | none => none
      | some (text, c) => readBlockBreaks indent fuel widest (breaks ++ text) c
    else some (breaks, widest, c)

/-- Read the lines of a block scalar. `lead` is the break before the present line, `breaks` are the
    further breaks after that, and `leadBlank` says whether the line before started with a blank.
    Gives the text, backwards, with what is left of `lead` and `breaks`. -/
def readBlockLines (literal : Bool) (indent : Nat) :
    Nat → List Char → List Char → List Char → Bool → Cursor →
      Option (List Char × List Char × List Char × Cursor)
  | 0, _, _, _, _, _ => none
  | fuel + 1, acc, lead, breaks, leadBlank, c =>
    if c.column == indent && !c.atEnd then do
      let blank := c.atBlank
      let acc :=
        if !literal && !leadBlank && !blank && lead == ['\n'] then
          if breaks.isEmpty then ' ' :: acc else acc
        else lead.reverse ++ acc
      let acc := breaks.reverse ++ acc
      let (line, c) ← c.takeWhile fun _ => true
      let (lead, c) ← c.passBreak
      let (breaks, _, c) ← readBlockBreaks indent c.fuel 0 [] c
      readBlockLines literal indent fuel (line.reverse ++ acc) lead breaks blank c
    else some (acc, lead, breaks, c)

/-- The header of a block scalar: a chomping indicator and an indentation indicator in either order,
    `none` when an indentation of zero is asked for. -/
def readBlockHeader (c : Cursor) : Option (Chomping × Nat × Cursor) := do
  let chomping? (c : Cursor) : Option Chomping :=
    if c.isAt '+' then some .keep else if c.isAt '-' then some .strip else none
  let digit? (c : Cursor) : Option Nat :=
    c.next?.bind fun ch => if ch.isDigit then some (ch.toNat - 0x30) else none
  let c ← c.need 1
  match chomping? c, digit? c with
  | some chomp, _ =>
    let c ← c.skip.need 1
    match digit? c with
    | some 0 => none
    | some n => some (chomp, n, c.skip)
    | none => some (chomp, 0, c)
  | none, some 0 => none
  | none, some n =>
    let c ← c.skip.need 1
    match chomping? c with
    | some chomp => some (chomp, n, c.skip)
    | none => some (.clip, n, c)
  | none, none => some (.clip, 0, c)

/-- Read a block scalar from behind its `|` or `>`, in a collection indented by `outer`. -/
def readBlock (literal : Bool) (outer : Int) (c : Cursor) : Option (List Char × Cursor) := do
  let (chomping, increment, c) ← readBlockHeader c
  let c ← c.passLineEnd
  let asked := if increment == 0 then 0 else (max outer 0).toNat + increment
  let (breaks, widest, c) ← readBlockBreaks asked c.fuel 0 [] c
  let indent := if asked == 0 then max (max widest (outer + 1).toNat) 1 else asked
  let (acc, lead, breaks, c) ← readBlockLines literal indent c.fuel [] [] breaks false c
  let tail := match chomping with
    | .strip => []
    | .clip => lead
    | .keep => lead ++ breaks
  return (acc.reverse ++ tail, c)

end ModifierToggle.Yaml
