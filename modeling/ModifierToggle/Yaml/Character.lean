import ModifierToggle.Text.Utf8

set_option autoImplicit false

/-! # The characters of a YAML stream

A stream is UTF-8 unless it starts with a UTF-16 byte order mark. It may not hold control characters
other than tabs and line breaks.

A stream is read in portions of 512 bytes, and a portion is judged as a whole: one bad character
spoils all of it, but not the portions before it. A stream is therefore its good characters, with
where each portion ends, and whether a spoilt portion follows. -/

namespace ModifierToggle.Yaml

/-! ## Classes of characters -/

/-- A space or a tab. -/
def isBlank (c : Char) : Bool := c == ' ' || c == '\t'

/-- A character that breaks a line: a carriage return, a newline, or one of the Unicode line and
    paragraph separators. -/
def isBreak (c : Char) : Bool :=
  c == '\r' || c == '\n' || c.toNat == 0x85 || c.toNat == 0x2028 || c.toNat == 0x2029

/-- White space or the end of the stream. -/
def isBlankOrEnd : Option Char → Bool
  | none => true
  | some c => isBlank c || isBreak c

/-- A character of an anchor, a tag handle or a directive name. -/
def isNameChar (c : Char) : Bool := c.isAlphanum || c == '_' || c == '-'

/-- A character a stream may hold. -/
def isAllowed (c : Char) : Bool :=
  let n := c.toNat
  n == 0x09 || n == 0x0A || n == 0x0D || (0x20 ≤ n && n ≤ 0x7E) || n == 0x85
    || (0xA0 ≤ n && n ≤ 0xD7FF) || (0xE000 ≤ n && n ≤ 0xFFFD) || 0x10000 ≤ n

/-! ## Decoding -/

/-- The number of bytes in the UTF-8 sequence that a byte starts; 0 when it starts none. -/
def sequenceLength (n : Nat) : Nat :=
  if n < 0x80 then 1
  else if 0xC0 ≤ n && n < 0xE0 then 2
  else if 0xE0 ≤ n && n < 0xF0 then 3
  else if 0xF0 ≤ n && n < 0xF8 then 4
  else 0

/-- How the characters of a stream are written. -/
inductive Encoding where
  | utf8
  | utf16 (bigEndian : Bool)

/-- What stands at the front of a run of bytes. -/
inductive Front where
  /-- A character that a stream may hold, and the number of its bytes. -/
  | char (c : Char) (width : Nat)
  /-- The start of a character. -/
  | cut
  | bad

namespace Encoding

/-- A character at the front, if a stream may hold it. -/
def allowed (n width : Nat) : Front :=
  if isAllowed (Char.ofNat n) then .char (Char.ofNat n) width else .bad

/-- What stands at the front of some bytes. -/
def front : Encoding → Text → Front
  | _, [] => .cut
  | .utf8, b :: rest =>
    let width := sequenceLength b.toNat
    if width == 0 then .bad
    else if (rest.take (width - 1)).length < width - 1 then .cut
    else
      match Utf8.front? b rest with
      | some (c, _) => allowed c.toNat width
      | none => .bad
  | .utf16 bigEndian, bytes =>
    let unit (a b : UInt8) : Nat :=
      if bigEndian then a.toNat * 256 + b.toNat else b.toNat * 256 + a.toNat
    match bytes with
    | a :: b :: rest =>
      let u := unit a b
      if 0xDC00 ≤ u && u ≤ 0xDFFF then .bad
      else if 0xD800 ≤ u && u ≤ 0xDBFF then
        match rest with
        | c :: d :: _ =>
          let v := unit c d
          if 0xDC00 ≤ v && v ≤ 0xDFFF then
            allowed (0x10000 + (u - 0xD800) * 0x400 + (v - 0xDC00)) 4
          else .bad
        | _ => .cut
      else allowed u 2
    | _ => .cut

/-- The characters of a portion, backwards, and the number of bytes they take; `none` when one of
    them is bad. The start of a character at the end is left for the next portion. -/
def portion? (e : Encoding) : Nat → List Char → Nat → Text → Option (List Char × Nat)
  | 0, cs, used, _ => some (cs, used)
  | fuel + 1, cs, used, bytes =>
    match e.front bytes with
    | .char c width => portion? e fuel (c :: cs) (used + width) (bytes.drop width)
    | .cut => some (cs, used)
    | .bad => none

end Encoding

/-- The good characters of a stream. -/
structure Stream where
  chars : List Char
  /-- The number of characters up to the end of each portion. -/
  portions : List Nat
  /-- Whether something follows that cannot be read. -/
  broken : Bool

namespace Stream

/-- The number of bytes in a portion. -/
def portionSize : Nat := 512

/-- The stream that starts with a portion of `size` bytes, after `count` characters. -/
def read (e : Encoding) : Nat → Nat → Nat → Text → Stream
  | 0, _, _, _ => { chars := [], portions := [], broken := false }
  | fuel + 1, size, count, bytes =>
    if bytes.isEmpty then { chars := [], portions := [], broken := false }
    else
      match e.portion? (size + 1) [] 0 (bytes.take size) with
      | none | some ([], _) => { chars := [], portions := [], broken := true }
      | some (cs, used) =>
        let count := count + cs.length
        let rest := read e fuel portionSize count (bytes.drop used)
        { rest with chars := cs.reverse ++ rest.chars, portions := count :: rest.portions }

/-- The stream of a text, in the encoding that its first bytes announce. The mark that announces it
    belongs to the first portion. -/
def ofText (t : Text) : Stream :=
  match t with
  | 0xFF :: 0xFE :: rest => read (.utf16 false) (t.length + 1) (portionSize - 2) 0 rest
  | 0xFE :: 0xFF :: rest => read (.utf16 true) (t.length + 1) (portionSize - 2) 0 rest
  | 0xEF :: 0xBB :: 0xBF :: rest => read .utf8 (t.length + 1) (portionSize - 3) 0 rest
  | _ => read .utf8 (t.length + 1) portionSize 0 t

end Stream

end ModifierToggle.Yaml
