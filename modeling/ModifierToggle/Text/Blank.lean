import ModifierToggle.Text.Utf8

set_option autoImplicit false

/-! # White space

Names are trimmed, and modifier runs are split into words, at *white space*: the characters with the
Unicode property of that name. A stray byte is never white space. -/

namespace ModifierToggle

/-- The Unicode white space characters. -/
def isWhiteSpace (c : Char) : Bool :=
  let n := c.toNat
  (9 ≤ n && n ≤ 13) || n == 0x20 || n == 0x85 || n == 0xA0 || n == 0x1680
    || (0x2000 ≤ n && n ≤ 0x200A) || n == 0x2028 || n == 0x2029 || n == 0x202F || n == 0x205F
    || n == 0x3000

/-- Whether a piece is a white space character. -/
def Piece.isWhite : Piece → Bool
  | .char c => isWhiteSpace c
  | .stray _ => false

namespace Text

/-- The text without white space at its start. -/
def trimStart (t : Text) : Text := ofPieces (t.pieces.dropWhile Piece.isWhite)

/-- The text without white space at its end. -/
def trimEnd (t : Text) : Text := ofPieces (t.pieces.reverse.dropWhile Piece.isWhite).reverse

/-- The text without white space at either end. -/
def trim (t : Text) : Text :=
  ofPieces (((t.pieces.dropWhile Piece.isWhite).reverse.dropWhile Piece.isWhite).reverse)

/-- Collect the words of a sequence of pieces; `word` is the word being read, backwards. -/
def wordsFrom (word : List Piece) : List Piece → List Text
  | [] => if word.isEmpty then [] else [ofPieces word.reverse]
  | p :: rest =>
    if p.isWhite then
      if word.isEmpty then wordsFrom [] rest else ofPieces word.reverse :: wordsFrom [] rest
    else wordsFrom (p :: word) rest

/-- The maximal runs of non-white pieces. -/
def words (t : Text) : List Text := wordsFrom [] t.pieces

end Text

end ModifierToggle
