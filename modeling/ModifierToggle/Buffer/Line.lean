import ModifierToggle.Text.Basic

set_option autoImplicit false

/-! # Lines of a text

A line ends at a newline byte, and a carriage return directly before that newline is part of the
line end, not of the line. The last line has no end: it runs to the end of the text, and keeps a
carriage return it may close with. So a text has one line more than it has newlines, and every text
has a line. -/

namespace ModifierToggle

/-- The extent of a line: the offset of its first byte, and the offset just past its last. -/
structure LineSpan where
  start : Nat
  stop : Nat
  deriving Repr, DecidableEq

namespace LineSpan

/-- The lines of what is left of a text from offset `pos` on, in a line that began at offset
    `start`. The byte before `pos` is on the same line and a carriage return when `afterReturn`
    holds. -/
def scan (start pos : Nat) (afterReturn : Bool) : Text → List LineSpan
  | [] => [⟨start, pos⟩]
  | b :: rest =>
    if b == Byte.newline then
      ⟨start, if afterReturn then pos - 1 else pos⟩ :: scan (pos + 1) (pos + 1) false rest
    else scan start (pos + 1) (b == Byte.carriageReturn) rest

end LineSpan

namespace Text

/-- The lines of a text, in order. -/
def lineSpans (t : Text) : List LineSpan := LineSpan.scan 0 0 false t

/-- The contents of the lines of a text, in order. -/
def lines (t : Text) : List Text := t.lineSpans.map fun s => t.slice s.start s.stop

end Text

end ModifierToggle
