import ModifierToggle.Text.Printable

set_option autoImplicit false

/-! # Quoted text

Messages show names between double quotes. Printable characters stand for themselves; the quote, the
backslash and the seven control characters with a name are written with a backslash; every other
character is written by its code point, and every stray byte by its value. -/

namespace ModifierToggle.Quoted

/-- A hexadecimal digit, in lower case. -/
def hexDigit (n : Nat) : UInt8 :=
  if n < 10 then UInt8.ofNat (0x30 + n) else UInt8.ofNat (0x57 + n)

/-- The last `width` hexadecimal digits of `n`. -/
def hex : Nat → Nat → Text
  | 0, _ => []
  | width + 1, n => hex width (n / 16) ++ [hexDigit (n % 16)]

/-- The letter that names a control character after a backslash. -/
def escapeLetter? (c : Char) : Option UInt8 :=
  match c.toNat with
  | 0x07 => some 0x61
  | 0x08 => some 0x62
  | 0x0C => some 0x66
  | 0x0A => some 0x6E
  | 0x0D => some 0x72
  | 0x09 => some 0x74
  | 0x0B => some 0x76
  | _ => none

/-- A character inside quotes. -/
def encodeChar (c : Char) : Text :=
  if c == '"' || c == '\\' then 0x5C :: Utf8.encode c
  else if isPrintable c then Utf8.encode c
  else match escapeLetter? c with
    | some letter => [0x5C, letter]
    | none =>
      if c.toNat < 0x80 then utf8 "\\x" ++ hex 2 c.toNat
      else if c.toNat < 0x10000 then utf8 "\\u" ++ hex 4 c.toNat
      else utf8 "\\U" ++ hex 8 c.toNat

/-- A piece inside quotes. -/
def encodePiece : Piece → Text
  | .char c => encodeChar c
  | .stray b => utf8 "\\x" ++ hex 2 b.toNat

end ModifierToggle.Quoted

namespace ModifierToggle

/-- The text between double quotes, with everything escaped that would not read as itself. -/
def Text.quoted (t : Text) : Text :=
  utf8 "\"" ++ t.pieces.flatMap Quoted.encodePiece ++ utf8 "\""

end ModifierToggle
