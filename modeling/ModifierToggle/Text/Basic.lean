import ModifierToggle.Text.Byte

set_option autoImplicit false

/-! # Byte texts

A text is the list of its bytes. Nothing requires the bytes to be valid UTF-8: a source file may
hold anything, and cutting a text at an offset may cut through a character. Names, patterns and
messages are texts too, so a name found in a source line and a name written in a settings file are
compared byte for byte. -/

namespace ModifierToggle

/-- A text, as its bytes. -/
abbrev Text := List UInt8

/-- The UTF-8 bytes of a string. -/
def utf8 (s : String) : Text := s.toUTF8.data.toList

namespace Text

/-! ## Parts of a text -/

/-- The bytes from offset `start` up to, not including, offset `stop`. -/
def slice (t : Text) (start stop : Nat) : Text := (t.take stop).drop start

/-- Cut off the longest end of `t` all of whose bytes satisfy `p`. -/
def trimEndWhile (p : UInt8 → Bool) (t : Text) : Text := (t.reverse.dropWhile p).reverse

/-- The number of leading spaces and tabs. -/
def indent (t : Text) : Nat := (t.takeWhile Byte.isBlank).length

/-- The offset of the first blank-free position at or after offset `i`. -/
def skipBlanks (t : Text) (i : Nat) : Nat := i + indent (t.drop i)

/-! ## Searching -/

/-- The offset of the first occurrence of `needle`. -/
def find? (needle : Text) : Text → Option Nat
  | [] => if needle.isEmpty then some 0 else none
  | b :: rest => if needle.isPrefixOf (b :: rest) then some 0 else (find? needle rest).map (· + 1)

/-- The offset of the first byte equal to `b`. -/
def findByte? (b : UInt8) (t : Text) : Option Nat := t.findIdx? (· == b)

/-- Whether `needle` occurs in `t`. -/
def includes (t needle : Text) : Bool := (find? needle t).isSome

/-! ## Replacing -/

/-- The text behind the first `skip` bytes, with every occurrence of `part` in it replaced. -/
def replaceAfter (part new : Text) : Nat → Text → Text
  | _, [] => []
  | skip + 1, _ :: rest => replaceAfter part new skip rest
  | 0, b :: rest =>
    if part.isPrefixOf (b :: rest) then new ++ replaceAfter part new (part.length - 1) rest
    else b :: replaceAfter part new 0 rest

/-- The text with every occurrence of `part` replaced by `new`. Occurrences are found from the left
    and do not overlap; `part` is not empty. -/
def replaceAll (part new t : Text) : Text := replaceAfter part new 0 t

/-! ## Splitting and joining -/

/-- The parts of `t` between the bytes equal to `b`; there is always at least one. -/
def splitOn (b : UInt8) : Text → List Text
  | [] => [[]]
  | c :: rest =>
    if c == b then [] :: splitOn b rest
    else match splitOn b rest with
      | [] => [[c]]
      | part :: parts => (c :: part) :: parts

/-- The parts of `t` that each run up to and include a byte equal to `b`, and the bytes after the
    last of them, unless there are none. -/
def splitAfter (b : UInt8) : Text → List Text
  | [] => []
  | c :: rest =>
    if c == b then [c] :: splitAfter b rest
    else match splitAfter b rest with
      | [] => [[c]]
      | part :: parts => (c :: part) :: parts

/-- The parts of `t` that each run up to and include a byte equal to `b`, and the bytes after the
    last of them, of which there may be none. -/
def cutAfter (b : UInt8) : Text → List Text
  | [] => [[]]
  | c :: rest =>
    if c == b then [c] :: cutAfter b rest
    else match cutAfter b rest with
      | [] => [[c]]
      | part :: parts => (c :: part) :: parts

/-- The parts with `sep` between neighbours. -/
def join (sep : Text) : List Text → Text
  | [] => []
  | [part] => part
  | part :: next :: parts => part ++ sep ++ join sep (next :: parts)

/-- The text before the first `b` and the text after it; `none` when there is no `b`. -/
def cut? (b : UInt8) (t : Text) : Option (Text × Text) :=
  (findByte? b t).map fun i => (t.take i, t.drop (i + 1))

end Text

end ModifierToggle
