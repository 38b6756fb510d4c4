import ModifierToggle.Text.Basic

set_option autoImplicit false

/-! # Characters of a byte text

A text is read as a sequence of *pieces*: a piece is either one well-formed UTF-8 character or one
stray byte that starts no character. A character is cut off greedily at the front, a stray byte is
always a single byte, and the pieces of a text concatenate to the text. -/

namespace ModifierToggle

/-- What a text is made of: characters, and stray bytes that belong to no character. -/
inductive Piece where
  | char (c : Char)
  | stray (b : UInt8)
  deriving Repr, DecidableEq

/-- The UTF-8 bytes of a character. -/
def Utf8.encode (c : Char) : Text := String.utf8EncodeChar c

namespace Piece

/-- The bytes the piece stands for. -/
def bytes : Piece → Text
  | .char c => Utf8.encode c
  | .stray b => [b]

end Piece

namespace Utf8

/-- A continuation byte carries six bits of a character. -/
def isContinuation (b : UInt8) : Bool := 0x80 ≤ b && b ≤ 0xBF

/-- The low six bits of a continuation byte. -/
def payload (b : UInt8) : Nat := b.toNat % 64

/-- The character at the front of `b :: rest` and the number of bytes it takes after `b`, when
    `b :: rest` starts with a well-formed character: no overlong form, no surrogate, nothing above
    `U+10FFFF`. -/
def front? (b : UInt8) (rest : Text) : Option (Char × Nat) :=
  if b < 0x80 then some (Char.ofNat b.toNat, 0)
  else if 0xC2 ≤ b && b ≤ 0xDF then
    match rest with
    | c :: _ =>
      if isContinuation c then some (Char.ofNat ((b.toNat - 0xC0) * 64 + payload c), 1) else none
    | _ => none
  else if 0xE0 ≤ b && b ≤ 0xEF then
    match rest with
    | c :: d :: _ =>
      let code := (b.toNat - 0xE0) * 4096 + payload c * 64 + payload d
      if isContinuation c && isContinuation d && 0x800 ≤ code
          && !(0xD800 ≤ code && code ≤ 0xDFFF) then
        some (Char.ofNat code, 2)
      else none
    | _ => none
  else if 0xF0 ≤ b && b ≤ 0xF4 then
    match rest with
    | c :: d :: e :: _ =>
      let code := (b.toNat - 0xF0) * 262144 + payload c * 4096 + payload d * 64 + payload e
      if isContinuation c && isContinuation d && isContinuation e && 0x10000 ≤ code
          && code ≤ 0x10FFFF then
        some (Char.ofNat code, 3)
      else none
    | _ => none
  else none

/-- The pieces of a text, where the first `skip` bytes belong to a piece already produced. -/
def piecesAfter : Nat → Text → List Piece
  | _, [] => []
  | skip + 1, _ :: rest => piecesAfter skip rest
  | 0, b :: rest =>
    match front? b rest with
    | some (c, more) => .char c :: piecesAfter more rest
    | none => .stray b :: piecesAfter 0 rest

end Utf8

namespace Text

/-- The pieces of a text, in order. -/
def pieces (t : Text) : List Piece := Utf8.piecesAfter 0 t

/-- The text the pieces stand for. -/
def ofPieces (ps : List Piece) : Text := ps.flatMap Piece.bytes

/-- The characters of a text that is well-formed throughout. -/
def chars? (t : Text) : Option (List Char) :=
  t.pieces.mapM fun
    | .char c => some c
    | .stray _ => none

/-- The bytes of a sequence of characters. -/
def ofChars (cs : List Char) : Text := cs.flatMap Utf8.encode

/-- Whether a text is well-formed UTF-8 throughout. -/
def isWellFormed (t : Text) : Bool := t.chars?.isSome

end Text

end ModifierToggle
