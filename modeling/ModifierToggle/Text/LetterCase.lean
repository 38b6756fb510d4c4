import ModifierToggle.Text.LetterCase.Table
import ModifierToggle.Text.Blank

set_option autoImplicit false

/-! # Letter case

Language names are compared in lower case, and menu labels without regard to case. Both work
character by character; a stray byte has no case and counts as the replacement character. -/

namespace ModifierToggle

/-- The character that stands for a stray byte. -/
def replacementChar : Char := Char.ofNat 0xFFFD

namespace Piece

/-- The character of a piece; a stray byte counts as the replacement character. -/
def toChar : Piece → Char
  | .char c => c
  | .stray _ => replacementChar

end Piece

namespace LetterCase

/-- The lower case form of a character. -/
def lower (c : Char) : Char :=
  if c.toNat < 0x80 then c.toLower else Char.ofNat (CaseRun.apply c.toNat CaseRun.lowercase)

/-- The representative of all characters that differ from `c` in case only. -/
def fold (c : Char) : Char :=
  if c.toNat < 0x80 then c.toLower else Char.ofNat (CaseRun.apply c.toNat CaseRun.folding)

/-- The characters that differ from `c` in case only, and `c` itself, as code points. -/
def orbit (c : Char) : List Nat :=
  let folded := (fold c).toNat
  let letter := Char.ofNat folded
  let capital := if letter.isLower then [letter.toUpper.toNat] else []
  folded :: capital ++ CaseRun.folding.filterMap fun r =>
    let n := ((folded : Int) - r.shift).toNat
    if r.first ≤ n && n ≤ r.last && (n - r.first) % r.stride == 0 then some n else none

end LetterCase

namespace Text

/-- The characters of a text, where a stray byte counts as the replacement character. -/
def toChars (t : Text) : List Char := t.pieces.map Piece.toChar

/-- Every character in lower case. -/
def lower (t : Text) : Text := ofChars (t.toChars.map LetterCase.lower)

/-- Equality up to case. -/
def equalFold (s t : Text) : Bool :=
  s.toChars.map LetterCase.fold == t.toChars.map LetterCase.fold

/-- The form in which names are compared: trimmed and in lower case. -/
def nameKey (t : Text) : Text := t.trim.lower

end Text

end ModifierToggle
