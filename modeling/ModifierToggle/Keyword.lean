import ModifierToggle.Text.LetterCase

set_option autoImplicit false

/-! # Keywords in source lines

A keyword *stands alone* where the byte before it, if there is one, is no word byte, and where white
space follows it. Most keywords may also end the text; the keyword that opens a declaration may not.

Occurrences are taken from left to right without overlap. Where two words could start at the same
byte, the first of them in the pattern counts.

The replacement character in a word also stands for any stray byte of the text. Words that have it
are looked for character by character; for all others, bytes will do. -/

namespace ModifierToggle.Keyword

/-- What to look for: one of the words, where `atEnd` says whether the end of the text is as good as
    white space after it. Where `nominal` holds, an occurrence counts as long as the word is, even
    if stray bytes make it shorter. -/
structure Pattern where
  words : List Text
  atEnd : Bool := true
  nominal : Bool := false
  deriving Repr, DecidableEq

/-- An occurrence of a word: its first byte, the byte after it, and the byte after the white space
    that follows it. -/
structure Occurrence where
  start : Nat
  stop : Nat
  next : Nat
  deriving Repr, DecidableEq

namespace Pattern

/-- How many white space bytes close a word that `rest` follows, if it is closed. -/
def closing? (p : Pattern) : Text → Option Nat
  | [] => if p.atEnd then some 0 else none
  | b :: _ => if Byte.isSeparator b then some 1 else none

/-- The length of the word at the front of `t`, and of the white space that closes it. -/
def front? (p : Pattern) (t : Text) : Option (Nat × Nat) :=
  p.words.findSome? fun w =>
    if w.isPrefixOf t then (p.closing? (t.drop w.length)).map fun n => (w.length, n) else none

/-- Search the rest of a text from offset `pos` on. The byte before it is a word byte when
    `afterWord` holds, and the next `skip` bytes belong to an occurrence that did not stand
    alone. -/
def scan (p : Pattern) (pos : Nat) (afterWord : Bool) : Nat → Text → Option Occurrence
  | _, [] => none
  | skip + 1, b :: rest => scan p (pos + 1) (Byte.isWord b) skip rest
  | 0, b :: rest =>
    match p.front? (b :: rest) with
    | some (word, close) =>
      if afterWord then scan p (pos + 1) (Byte.isWord b) (word + close - 1) rest
      else some ⟨pos, pos + word, pos + word + close⟩
    | none => scan p (pos + 1) (Byte.isWord b) 0 rest

/-! ## Words with the replacement character -/

/-- The number of characters and of bytes that a word takes at the front of some pieces. -/
def taken? : List Char → List Piece → Option (Nat × Nat)
  | [], _ => some (0, 0)
  | _ :: _, [] => none
  | c :: word, piece :: rest =>
    if piece.toChar == c then
      (taken? word rest).map fun (count, size) => (count + 1, size + piece.bytes.length)
    else none

/-- How the front of some pieces is taken by a word and the white space that closes it: the length
    of the word, its bytes, its characters, and the number of white space bytes. -/
def frontPieces? (p : Pattern) (pieces : List Piece) : Option (Nat × Nat × Nat × Nat) :=
  p.words.findSome? fun w =>
    match taken? w.toChars pieces with
    | none => none
    | some (count, size) =>
      (p.closing? (Text.ofPieces ((pieces.drop count).take 1))).map fun close =>
        (w.length, size, count, close)

/-- Search pieces of a text from offset `pos` on, as `scan` does for bytes. -/
def scanPieces (p : Pattern) (pos : Nat) (afterWord : Bool) : Nat → List Piece → Option Occurrence
  | _, [] => none
  | skip + 1, piece :: rest =>
    scanPieces p (pos + piece.bytes.length) (piece.bytes.all Byte.isWord) skip rest
  | 0, piece :: rest =>
    let onward (skip : Nat) :=
      scanPieces p (pos + piece.bytes.length) (piece.bytes.all Byte.isWord) skip rest
    match p.frontPieces? (piece :: rest) with
    | some (length, size, count, close) =>
      if afterWord then onward (count + close - 1)
      else some ⟨pos, pos + (if p.nominal then length else size), pos + size + close⟩
    | none => onward 0

/-- Whether one of the words has the replacement character. -/
def hasReplacement (p : Pattern) : Bool :=
  p.words.any (Text.includes · (Utf8.encode replacementChar))

/-- The first occurrence of one of the words that stands alone. -/
def find? (p : Pattern) (t : Text) : Option Occurrence :=
  if p.hasReplacement then p.scanPieces 0 false 0 t.pieces else p.scan 0 false 0 t

end Pattern

end ModifierToggle.Keyword
