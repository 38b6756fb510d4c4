import ModifierToggle.Yaml.Character

set_option autoImplicit false

/-! # Positions in a YAML stream

A scan may look at a character only after it has asked for it with `need`, which reads in portions
until the character is at hand. A scan that needs more than the good part of a broken stream fails
there. -/

namespace ModifierToggle.Yaml

/-- What is left of a stream, and how far into it that is. -/
structure Cursor where
  rest : List Char
  /-- The number of characters of the whole stream. -/
  size : Nat
  /-- The ends of the portions yet to be read in. -/
  portions : List Nat
  broken : Bool
  index : Nat := 0
  line : Nat := 0
  column : Nat := 0
  /-- Whether only blanks have been passed since a line break. -/
  fresh : Bool := false
  /-- The number of characters read in so far; the end of the stream counts each time it is met. -/
  filled : Nat := 0
  /-- Whether a byte order mark came next when characters were last read in. -/
  marked : Bool := false

namespace Cursor

/-- The start of a stream. -/
def start (s : Stream) : Cursor :=
  { rest := s.chars, size := s.chars.length, portions := s.portions, broken := s.broken }

/-- A number of turns that no loop over the rest of the stream exceeds. -/
def fuel (c : Cursor) : Nat := c.size - c.index + 1

/-- The next character. -/
def next? (c : Cursor) : Option Char := c.rest.head?

/-- The `n`-th character from here, counted from 0. -/
def peek? (c : Cursor) (n : Nat) : Option Char := c.rest[n]?

/-- Whether the next character is a given one. -/
def isAt (c : Cursor) (ch : Char) : Bool := c.next? == some ch

/-- Whether the stream ends here. -/
def atEnd (c : Cursor) : Bool := c.rest.isEmpty

/-- Whether a line break, a blank or the end comes next. -/
def atWhite (c : Cursor) : Bool := isBlankOrEnd c.next?

/-- Whether a line break comes next. -/
def atBreak (c : Cursor) : Bool := c.next?.any isBreak

/-- Whether a blank comes next. -/
def atBlank (c : Cursor) : Bool := c.next?.any isBlank

/-- Read in portions until `n` characters are at hand, or the stream is at its end. Where neither
    can be had, the stream is broken. -/
def need (n : Nat) (c : Cursor) : Option Cursor :=
  if c.index + n ≤ c.filled then some c
  else
    let marked := c.next?.any (·.toNat == 0xFEFF)
    match c.portions.dropWhile (· < c.index + n) with
    | filled :: portions => some { c with filled, portions, marked }
    | [] =>
      if c.broken then none
      else
        let filled := c.portions.getLast?.getD c.filled + 1
        some { c with filled, portions := [], marked }

/-- Pass one character that breaks no line. -/
def skip (c : Cursor) : Cursor :=
  match c.rest with
  | [] => c
  | ch :: rest =>
    { c with
      rest, index := c.index + 1, column := c.column + 1, fresh := c.fresh && isBlank ch }

/-- Pass `n` characters that break no line. -/
def skipN : Nat → Cursor → Cursor
  | 0, c => c
  | n + 1, c => skipN n c.skip

/-- Pass a run of characters that break no line, with `ahead` characters at hand after each. -/
def passRun (ahead : Nat) : List Char → Cursor → Option Cursor
  | [], c => some c
  | _ :: run, c => (c.skip.need ahead).bind (passRun ahead run)

/-- The longest run of characters that satisfy `p`, none of them a line break. -/
def takeWhile (c : Cursor) (p : Char → Bool) : Option (List Char × Cursor) :=
  (c.need 1).bind fun c =>
    let run := c.rest.takeWhile fun ch => p ch && !isBreak ch
    (c.passRun 1 run).map (run, ·)

/-- Pass the characters that satisfy `p`. -/
def skipWhile (c : Cursor) (p : Char → Bool) : Option Cursor := (c.takeWhile p).map (·.2)

/-- Pass what is left of the line. -/
def skipLine (c : Cursor) : Option Cursor := c.skipWhile fun _ => true

/-- Pass a line break, and give the text it stands for. A carriage return and a newline together are
    one break, and every break but a line or paragraph separator stands for a newline. At the end of
    the stream there is nothing to pass. -/
def passBreak (c : Cursor) : Option (List Char × Cursor) :=
  (c.need 2).map fun c =>
    let passed (n : Nat) (rest : List Char) : Cursor :=
      { c with rest, index := c.index + n, line := c.line + 1, column := 0, fresh := true }
    match c.rest with
    | '\r' :: '\n' :: rest => (['\n'], passed 2 rest)
    | ch :: rest =>
      if ch.toNat == 0x2028 || ch.toNat == 0x2029 then ([ch], passed 1 rest)
      else (['\n'], passed 1 rest)
    | [] => ([], c)

/-- Whether a document marker, three times `ch`, stands at the start of the line. -/
def atMarker (c : Cursor) (ch : Char) : Bool :=
  c.column == 0 && c.rest.take 3 == [ch, ch, ch] && isBlankOrEnd (c.peek? 3)

/-- Whether a line starts here with a marker that ends a document. -/
def atDocumentMarker (c : Cursor) : Bool := c.atMarker '-' || c.atMarker '.'

/-- Pass blanks and a comment at the end of a line, and the line break. Anything else there is
    refused. -/
def passLineEnd (c : Cursor) : Option Cursor := do
  let c ← c.skipWhile isBlank
  let c ← if c.isAt '#' then c.skipLine else some c
  if c.atBreak then c.passBreak.map (·.2) else if c.atEnd then some c else none

end Cursor

end ModifierToggle.Yaml
