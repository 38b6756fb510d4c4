import ModifierToggle.Text.Identifier
import ModifierToggle.Text.LetterCase
import ModifierToggle.Text.Utf8

set_option autoImplicit false

/-! # Tokens of settings

A settings file is cut into tokens. Outside of quotes these are names, numbers, signs and line ends;
spaces and comments are left out, except that the line end of a comment counts. Between quotes, and
between the lines of a here-document, the text is literal apart from the sequences `${ ... }` and
`%{ ... }`, which hold tokens of their own. So the reading mode is a stack: each such sequence opens
a new run of ordinary tokens and ends at the brace that closes it.

Cutting fails where no token can start: at a character with no meaning, at a line end between
quotes, at a carriage return alone, at a stray byte, and at an escape sequence that names no
character. -/

namespace ModifierToggle.Hcl

/-! ## Glyphs

Literal text may hold bytes that only look like a character: a first byte that asks for a number of
further bytes, and that many further bytes. They are kept as they are. -/

/-- A unit of a text: a character, bytes in the form of a character that stand for none, or a byte
    in no such form. -/
inductive Glyph where
  | char (c : Char)
  | formed (bytes : Text)
  | stray (b : UInt8)
  deriving Repr, DecidableEq

namespace Glyph

/-- The bytes of a glyph. -/
def bytes : Glyph → Text
  | .char c => Utf8.encode c
  | .formed bytes => bytes
  | .stray b => [b]

/-- The number of bytes in the form that a byte starts; 0 when it starts none. -/
def width (b : UInt8) : Nat :=
  if b < 0x80 then 1
  else if b < 0xC0 then 0
  else if b < 0xE0 then 2
  else if b < 0xF0 then 3
  else if b < 0xF8 then 4
  else 0

/-- The glyph that a byte and those behind it start with. -/
def front (b : UInt8) (rest : Text) : Glyph :=
  let more := (rest.take (width b - 1)).takeWhile fun c => 0x80 ≤ c && c < 0xC0
  if more.length + 1 == width b then
    match Text.chars? (b :: more) with
    | some [c] => .char c
    | _ => .formed (b :: more)
  else .stray b

/-- The glyphs of a text behind the bytes of the last one. -/
def glyphsAfter : Nat → Text → List Glyph
  | _, [] => []
  | skip + 1, _ :: rest => glyphsAfter skip rest
  | 0, b :: rest =>
    let g := front b rest
    g :: glyphsAfter (g.bytes.length - 1) rest

/-- The glyphs of a text. -/
def ofText (t : Text) : List Glyph := glyphsAfter 0 t

/-- The text of glyphs. -/
def toText (gs : List Glyph) : Text := gs.flatMap bytes

end Glyph

/-! ## Tokens -/

/-- A token. -/
inductive Token where
  | name (t : Text)
  | number (t : Text)
  | newline
  | sign (s : String)
  | openQuote
  | closeQuote
  /-- Here, `flush` asks for the common indentation to be taken off the lines. -/
  | openHere (flush : Bool)
  | closeHere
  | literal (t : Text)
  /-- The start of an interpolation; `trim` takes off white space before it. -/
  | openInterpolation (trim : Bool)
  /-- The start of a directive; `trim` takes off white space before it. -/
  | openDirective (trim : Bool)
  /-- The end of an interpolation or directive; `trim` takes off white space behind it. -/
  | closeSequence (trim : Bool)
  deriving Repr, DecidableEq

/-- What is being read. -/
inductive Mode where
  /-- Ordinary tokens, with a number of braces open. -/
  | code (braces : Nat)
  | quoted
  /-- The lines up to one with the marker alone. -/
  | here (marker : Text) (lineStart : Bool)
  deriving Repr, DecidableEq

namespace Token

/-! ## Ordinary tokens -/

/-- The signs, longer ones first. -/
def signs : List String :=
  ["...", "==", "!=", ">=", "<=", "&&", "||", "=>", "::", "+", "-", "*", "/", "%", ">", "<", ".",
   ",", "=", "!", "(", ")", "[", "]", "?", ":"]

/-- The sign that a sequence of pieces starts with. -/
def sign? (ps : List Glyph) : Option String :=
  signs.find? fun s => (s.toList.map Glyph.char).isPrefixOf ps

/-- The pieces behind the end of a block comment. -/
def afterComment? : List Glyph → Option (List Glyph)
  | [] => none
  | .char '*' :: .char '/' :: rest => some rest
  | _ :: rest => afterComment? rest

/-- Whether a piece is an ASCII digit. -/
def isDigit : Glyph → Bool
  | .char c => c.isDigit
  | _ => false

/-- Whether a name may start with a piece. -/
def startsName : Glyph → Bool
  | .char c => Identifier.starts c
  | _ => false

/-- Whether a piece may stand in a name. -/
def continuesName : Glyph → Bool
  | .char c => Identifier.continues c
  | _ => false

/-- The number of pieces of the start of an exponent: its letter, perhaps a sign, and a digit; 0
    when there is none. -/
def exponentLength : List Glyph → Nat
  | .char e :: rest =>
    if e == 'e' || e == 'E' then
      match rest with
      | .char '+' :: d :: _ => if isDigit d then 3 else 0
      | .char '-' :: d :: _ => if isDigit d then 3 else 0
      | d :: _ => if isDigit d then 2 else 0
      | [] => 0
    else 0
  | _ => 0

/-- The number of pieces of a number: digits, points and the starts of exponents in any order, up to
    the last that is not a point. Of the pieces passed, `length` in number, `best` are part of it
    for sure; the next `skip` belong to the start of an exponent. -/
def numberLength (skip length best : Nat) : List Glyph → Nat
  | [] => best
  | g :: rest =>
    match skip with
    | skip + 1 => numberLength skip length best rest
    | 0 =>
      if g == .char '.' then numberLength 0 (length + 1) best rest
      else if isDigit g then numberLength 0 (length + 1) (length + 1) rest
      else match exponentLength (g :: rest) with
        | 0 => best
        | n + 1 => numberLength n (length + n + 1) (length + n + 1) rest

/-- Cut off a line end. -/
def lineEnd? : List Glyph → Option (List Glyph)
  | .char '\n' :: rest => some rest
  | .char '\r' :: .char '\n' :: rest => some rest
  | _ => none

/-- The start of a here-document behind `<<`: whether it is flush, its marker, and what follows its
    line. -/
def hereStart? (ps : List Glyph) : Option (Bool × Text × List Glyph) :=
  let (flush, ps) : Bool × List Glyph :=
    match ps with
    | .char '-' :: rest => (true, rest)
    | ps => (false, ps)
  match ps with
  | p :: _ =>
    if startsName p then
      let marker := ps.takeWhile continuesName
      (lineEnd? (ps.drop marker.length)).map fun rest => (flush, Glyph.toText marker, rest)
    else none
  | [] => none

/-- A step of cutting: the tokens found, the modes after them, and the pieces left. -/
abbrev Step := List Token × List Mode × List Glyph

/-- The next step among ordinary tokens, with `braces` open, inside the modes `outer`. -/
def codeStep (braces : Nat) (outer : List Mode) (p : Glyph) (rest : List Glyph) : Option Step :=
  let here : List Mode := .code braces :: outer
  match p, rest with
  | .char ' ', _ => some ([], here, rest)
  | .char '\t', _ => some ([], here, rest)
  | .char '#', _ => some ([], here, rest.dropWhile (· != .char '\n'))
  | .char '/', .char '/' :: _ => some ([], here, rest.dropWhile (· != .char '\n'))
  | .char '"', _ => some ([.openQuote], .quoted :: here, rest)
  | .char '{', _ => some ([.sign "\x7b"], .code (braces + 1) :: outer, rest)
  | .char '}', _ =>
    if braces = 0 && !outer.isEmpty then some ([.closeSequence false], outer, rest)
    else some ([.sign "\x7d"], .code (braces - 1) :: outer, rest)
  | .char '~', .char '}' :: rest =>
    if braces = 0 && !outer.isEmpty then some ([.closeSequence true], outer, rest) else none
  | _, _ =>
    let all := p :: rest
    match lineEnd? all with
    | some rest => some ([.newline], here, rest)
    | none =>
      let comment := match p, rest with
        | .char '/', .char '*' :: rest => afterComment? rest
        | _, _ => none
      match comment with
      | some rest => some ([], here, rest)
      | none =>
        let document := match p, rest with
          | .char '<', .char '<' :: rest => hereStart? rest
          | _, _ => none
        match document with
        | some (flush, marker, rest) => some ([.openHere flush], .here marker true :: here, rest)
        | none =>
          if isDigit p then
            let n := numberLength 0 0 0 all
            some ([.number (Glyph.toText (all.take n))], here, all.drop n)
          else if startsName p then
            let name := all.takeWhile continuesName
            some ([.name (Glyph.toText name)], here, all.drop name.length)
          else
            (sign? all).map fun s => ([.sign s], here, all.drop s.length)

/-! ## Literal text -/

/-- The character with a code in hexadecimal digits. -/
def hexChar? (digits : List Glyph) : Option Char :=
  let value := digits.foldlM (fun (n : Nat) p =>
    match p with
    | .char c =>
      if c.isDigit then some (16 * n + (c.toNat - '0'.toNat))
      else if 'a' ≤ c && c ≤ 'f' then some (16 * n + (c.toNat - 'a'.toNat + 10))
      else if 'A' ≤ c && c ≤ 'F' then some (16 * n + (c.toNat - 'A'.toNat + 10))
      else none
    | _ => none) 0
  value.bind fun n => if n.isValidChar then some (Char.ofNat n) else none

/-- The character a backslash and the pieces behind it stand for, and how many pieces those are. -/
def escape? : List Glyph → Option (Char × Nat)
  | .char 'n' :: _ => some ('\n', 1)
  | .char 'r' :: _ => some ('\r', 1)
  | .char 't' :: _ => some ('\t', 1)
  | .char '"' :: _ => some ('"', 1)
  | .char '\\' :: _ => some ('\\', 1)
  | .char 'u' :: rest =>
    if rest.length < 4 then none else (hexChar? (rest.take 4)).map fun c => (c, 5)
  | .char 'U' :: rest =>
    if rest.length < 8 then none else (hexChar? (rest.take 8)).map fun c => (c, 9)
  | _ => none

/-- Read literal text between quotes up to a quote, a `$`, a `%` or a line end. The first `skip`
    pieces belong to an escape sequence already read. -/
def quotedRun : Nat → List Glyph → Option (Text × List Glyph)
  | _, [] => some ([], [])
  | skip + 1, _ :: rest => quotedRun skip rest
  | 0, .char c :: rest =>
    if c == '"' || c == '$' || c == '%' || c == '\n' || c == '\r' then some ([], .char c :: rest)
    else if c == '\\' then
      match escape? rest with
      | none => none
      | some (d, n) => (quotedRun n rest).map fun (t, gs) => (Utf8.encode d ++ t, gs)
    else (quotedRun 0 rest).map fun (t, gs) => (Utf8.encode c ++ t, gs)
  | 0, .formed bytes :: rest => (quotedRun 0 rest).map fun (t, gs) => (bytes ++ t, gs)
  | 0, .stray _ :: _ => none

/-- What a `$` or `%` does in literal text: it opens a sequence, it escapes one when it is doubled,
    or it stands for itself. -/
def sigilStep (sigil : Char) (mode : List Mode) (rest : List Glyph) : Step :=
  let opening (trim : Bool) : Token :=
    if sigil == '$' then .openInterpolation trim else .openDirective trim
  match rest with
  | .char '{' :: .char '~' :: rest => ([opening true], .code 0 :: mode, rest)
  | .char '{' :: rest => ([opening false], .code 0 :: mode, rest)
  | .char c :: .char '{' :: rest' =>
    if c == sigil then ([.literal (Text.ofChars [sigil, '{'])], mode, rest')
    else ([.literal (Text.ofChars [sigil])], mode, rest)
  | rest => ([.literal (Text.ofChars [sigil])], mode, rest)

/-- The next step between quotes. -/
def quotedStep (outer : List Mode) (p : Glyph) (rest : List Glyph) : Option Step :=
  match p with
  | .char '"' => some ([.closeQuote], outer, rest)
  | .char '\n' => none
  | .char '\r' => none
  | .char '$' => some (sigilStep '$' (.quoted :: outer) rest)
  | .char '%' => some (sigilStep '%' (.quoted :: outer) rest)
  | p =>
    (quotedRun 0 (p :: rest)).map fun (t, rest) => ([.literal t], .quoted :: outer, rest)

/-- Whether pieces of a here-document are literal text: no stray bytes, and no carriage returns. -/
def isLiteral (gs : List Glyph) : Bool :=
  gs.all fun
    | .char c => c != '\r'
    | .formed _ => true
    | .stray _ => false

/-- The next step in a here-document. A line with the marker alone ends it; the line end behind the
    marker is a token of its own. -/
def hereStep (marker : Text) (lineStart : Bool) (outer : List Mode) (p : Glyph)
    (rest : List Glyph) : Option Step :=
  let all := p :: rest
  let line := all.takeWhile (· != .char '\n')
  let behind := all.drop line.length
  -- a line may end in a carriage return and a newline
  let words (gs : List Glyph) : List Glyph :=
    if gs.length == line.length && !behind.isEmpty && gs.getLast? == some (.char '\r') then
      gs.dropLast
    else gs
  if lineStart && !behind.isEmpty && isLiteral (words line)
      && (Glyph.toText line).trim == marker then
    some ([.closeHere, .newline], outer, behind.drop 1)
  else match p with
    | .char '$' => some (sigilStep '$' (.here marker false :: outer) rest)
    | .char '%' => some (sigilStep '%' (.here marker false :: outer) rest)
    | _ =>
      let run := line.takeWhile fun q => q != .char '$' && q != .char '%'
      let ends := run.length == line.length && !behind.isEmpty
      if isLiteral (words run) then
        let run := if ends then run ++ [.char '\n'] else run
        some ([.literal (Glyph.toText run)], .here marker ends :: outer, all.drop run.length)
      else none

/-! ## Whole texts -/

/-- Cut pieces into tokens. Every step takes at least one piece, so the number of pieces bounds the
    number of steps. -/
def ofGlyphs? : Nat → List Mode → List Glyph → Option (List Token)
  | _, _, [] => some []
  | 0, _, _ => none
  | fuel + 1, modes, p :: rest =>
    let step := match modes with
      | [] => none
      | .code braces :: outer => codeStep braces outer p rest
      | .quoted :: outer => quotedStep outer p rest
      | .here marker lineStart :: outer => hereStep marker lineStart outer p rest
    match step with
    | none => none
    | some (tokens, modes, rest) => (ofGlyphs? fuel modes rest).map (tokens ++ ·)

/-- A text without the mark that some editors put in front of UTF-8. -/
def withoutMark : List Glyph → List Glyph
  | .char c :: rest => if c.toNat = 0xFEFF then rest else .char c :: rest
  | ps => ps

/-- Cut a text into tokens. -/
def ofText? (t : Text) : Option (List Token) :=
  let gs := withoutMark (Glyph.ofText t)
  ofGlyphs? (gs.length + 1) [.code 0] gs

end Token

end ModifierToggle.Hcl
