import ModifierToggle.Buffer.Basic

set_option autoImplicit false

/-! # Buffers with a line index

Lines are looked up far more often than the text changes, so a buffer keeps an index of them: where
each line starts, and where each line ends. The index is made from the text when the buffer is made
and again behind every splice. Whatever asks for lines reads the index. -/

namespace ModifierToggle

/-- A buffer with an index of its lines. -/
structure IndexedBuffer extends Buffer where
  /-- The offsets at which the lines start, in order. -/
  starts : List Nat
  /-- The offsets at which the lines end, in order. -/
  ends : List Nat
  deriving Repr, DecidableEq

namespace IndexedBuffer

/-- Make the index of a buffer from its text. -/
def index (b : Buffer) : IndexedBuffer :=
  { b with
    starts := b.text.lineSpans.map (·.start)
    ends := b.text.lineSpans.map (·.stop) }

/-- A buffer with no history and the cursor at the start. -/
def ofText (t : Text) : IndexedBuffer := index (Buffer.ofText t)

/-! ## Lines -/

/-- The number of lines. -/
def lineCount (b : IndexedBuffer) : Nat := b.starts.length

/-- The offset of the first byte of line `n`; the nearer end of the text when there is no such
    line. -/
def lineStart (b : IndexedBuffer) (n : Int) : Nat :=
  if n < 0 then 0 else (b.starts[n.toNat]?).getD b.text.length

/-- The offset just past the last byte of line `n`; the nearer end of the text when there is no such
    line. -/
def lineEnd (b : IndexedBuffer) (n : Int) : Nat :=
  if n < 0 then 0 else (b.ends[n.toNat]?).getD b.text.length

/-- Line `n`, without its line end; empty when there is no such line. -/
def line (b : IndexedBuffer) (n : Int) : Text :=
  if n < 0 || n ≥ b.lineCount then [] else b.text.slice (b.lineStart n) (b.lineEnd n)

/-- All lines, in order. -/
def lines (b : IndexedBuffer) : List Text := (List.range b.lineCount).map fun (n : Nat) => b.line n

/-- The last of the lines `lo` to `hi` that starts at or before `offset`, where `lo` does. The lines
    that come into question are halved until one is left, which `hi - lo` steps are enough for. -/
def bisect (b : IndexedBuffer) (offset : Int) : Nat → Nat → Nat → Nat
  | 0, lo, _ => lo
  | steps + 1, lo, hi =>
    if lo < hi then
      let mid := (lo + hi + 1) / 2
      if (b.lineStart mid : Int) ≤ offset then b.bisect offset steps mid hi
      else b.bisect offset steps lo (mid - 1)
    else lo

/-- The last line that starts at or before `offset`; the first line when none does. -/
def lineAt (b : IndexedBuffer) (offset : Int) : Nat :=
  if offset ≤ 0 then 0 else b.bisect offset b.lineCount 0 (b.lineCount - 1)

/-! ## The cursor and groups -/

/-- Move the cursor, at most to the ends of the text. -/
def moveCursor (b : IndexedBuffer) (offset : Int) : IndexedBuffer :=
  { b with toBuffer := b.toBuffer.moveCursor offset }

/-- Open a group. -/
def beginGroup (b : IndexedBuffer) : IndexedBuffer :=
  { b with toBuffer := b.toBuffer.beginGroup }

/-- Close a group. Closing the outermost one records its edits, if there are any. -/
def endGroup (b : IndexedBuffer) : IndexedBuffer :=
  { b with toBuffer := b.toBuffer.endGroup }

/-! ## Edits -/

/-- Replace `oldLength` bytes at `start` by `new`, and make the index of the new text. -/
def splice (b : IndexedBuffer) (start oldLength : Nat) (new : Text) : IndexedBuffer :=
  index (b.toBuffer.splice start oldLength new)

/-- Replace the bytes from `start` to `stop` by `new` and record the edit. A replacement that
    changes nothing is not recorded; any other one makes undone groups impossible to redo. -/
def replaceRange (b : IndexedBuffer) (start stop : Int) (new : Text) :
    Except RangeError IndexedBuffer :=
  if start < 0 || stop < start || stop > b.text.length then .error .outOfBounds
  else
    let edit : Edit := ⟨start.toNat, b.text.slice start.toNat stop.toNat, new⟩
    if edit.old = new then .ok b
    else
      let b : IndexedBuffer := { b.splice edit.start edit.old.length new with redoable := [] }
      .ok <|
        if 0 < b.depth then { b with pending := b.pending ++ [edit] }
        else { b with undoable := [edit] :: b.undoable }

/-- Take an edit back. -/
def revert (b : IndexedBuffer) (e : Edit) : IndexedBuffer := b.splice e.start e.new.length e.old

/-- Make an edit again. -/
def reapply (b : IndexedBuffer) (e : Edit) : IndexedBuffer := b.splice e.start e.old.length e.new

/-- Take back the latest group; `none` when there is none or a group is being recorded. -/
def undo? (b : IndexedBuffer) : Option IndexedBuffer :=
  if 0 < b.depth then none
  else match b.undoable with
    | [] => none
    | group :: earlier =>
      let b' := group.reverse.foldl revert b
      some { b' with undoable := earlier, redoable := group :: b.redoable }

/-- Make the latest undone group again; `none` when there is none or a group is being recorded. -/
def redo? (b : IndexedBuffer) : Option IndexedBuffer :=
  if 0 < b.depth then none
  else match b.redoable with
    | [] => none
    | group :: later =>
      let b' := group.foldl reapply b
      some { b' with undoable := group :: b.undoable, redoable := later }

end IndexedBuffer

end ModifierToggle
