import ModifierToggle.Text.Basic

set_option autoImplicit false

/-! # Comments

Modifiers are looked for in code only. `//` opens a comment that runs to the end of the line, `/*`
one that runs to the next `*/`, if need be across lines. What remains of a line keeps its offsets:
a block comment that closes on the line is overwritten with spaces, and a comment that does not is
cut off. -/

namespace ModifierToggle.Comment

/-- Where a line is being read: in code, or in a block comment of which the line has had `width`
    bytes. -/
inductive Mode where
  | code
  | block (width : Nat)
  deriving Repr, DecidableEq

/-- The code of what is left of a line, and whether a block comment is open at its end. -/
def strip : Mode → Text → Text × Bool
  | .code, [] => ([], false)
  | .code, 0x2F :: 0x2F :: _ => ([], false)
  | .code, 0x2F :: 0x2A :: rest => strip (.block 2) rest
  | .code, b :: rest =>
    let (code, opened) := strip .code rest
    (b :: code, opened)
  | .block _, [] => ([], true)
  | .block width, 0x2A :: 0x2F :: rest =>
    let (code, opened) := strip .code rest
    (List.replicate (width + 2) Byte.space ++ code, opened)
  | .block width, _ :: rest => strip (.block (width + 1)) rest

/-- The code of a line that starts inside a block comment when `inBlock` holds, and whether a block
    comment is open at its end. -/
def stripLine (inBlock : Bool) (line : Text) : Text × Bool :=
  strip (if inBlock then .block 0 else .code) line

/-- The code of consecutive lines. -/
def stripLines (inBlock : Bool) : List Text → List Text
  | [] => []
  | line :: rest =>
    let (code, opened) := stripLine inBlock line
    code :: stripLines opened rest

end ModifierToggle.Comment
