import ModifierToggle.LineDiff.Basic
import ModifierToggle.Style

set_option autoImplicit false

/-! # Showing differences

A difference between two texts is given as *stretches* of text, with what becomes of each. Only the
lines of stretches that change are shown, each on a line of its own behind a sign that tells how.
The end of a line is no part of what is shown. -/

namespace ModifierToggle

/-- A line without its end. -/
def Text.withoutLineEnd (line : Text) : Text :=
  line.trimEndWhile fun b => b == Byte.carriageReturn || b == Byte.newline

namespace Change

/-- The sign before lines that change. -/
def sign? : Change → Option UInt8
  | .keep => none
  | .delete => some Byte.minus
  | .insert => some 0x2B

end Change

namespace LineDiff

/-- A stretch of text with what becomes of it. -/
structure Stretch where
  change : Change
  text : Text
  deriving Repr, DecidableEq

/-- A way to find the difference between an old text and a new one. -/
abbrev Differ : Type := Text → Text → List Stretch

/-- The text of a run of lines. -/
def Stretch.ofHunk (h : Hunk Text) : Stretch := ⟨h.change, h.lines.flatten⟩

/-- The difference between two texts, line by line. -/
def byLines : Differ := fun old new =>
  (diff (old.splitAfter Byte.newline) (new.splitAfter Byte.newline)).map Stretch.ofHunk

/-- The lines of a stretch as they are shown. The stretch is cut behind each newline; what is cut
    off behind the last one is empty when the stretch ends there, and makes no line. -/
def Stretch.render (s : Stretch) : Text :=
  match s.change.sign? with
  | none => []
  | some sign =>
    ((s.text.cutAfter Byte.newline).filter (!·.isEmpty)).flatMap fun line =>
      sign :: line.withoutLineEnd ++ [Byte.newline]

/-- A line of a shown difference in the colour of its sign. -/
def colored (styled : Bool) (line : Text) : Text :=
  match line with
  | 0x2D :: _ => line.styled styled [.red]
  | 0x2B :: _ => line.styled styled [.green]
  | _ => line

/-- A shown difference as it is printed: without empty lines, and coloured. -/
def printed (styled : Bool) (shown : Text) : Text :=
  let lines := Text.splitOn Byte.newline (shown.trimEndWhile (· == Byte.newline))
  (lines.filter (!·.isEmpty)).flatMap fun line => colored styled line ++ [Byte.newline]

end LineDiff

end ModifierToggle
