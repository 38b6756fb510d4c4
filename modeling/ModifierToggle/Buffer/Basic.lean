import ModifierToggle.Buffer.Line

set_option autoImplicit false

/-! # Text buffers with undo

A buffer holds a text, a cursor and the history of its edits. Edits are recorded in *groups*, and a
group is undone and redone as a whole. Groups nest while they are being recorded, but only the
outermost one counts.

Lines and offsets are addressed by arbitrary integers: a line before the first or after the last is
empty, and its start is the nearer end of the text. -/

namespace ModifierToggle

/-- One replacement: at offset `start`, the text `old` gave way to `new`. -/
structure Edit where
  start : Nat
  old : Text
  new : Text
  deriving Repr, DecidableEq

/-- A text with a cursor and an edit history. The latest group of either history stands first, the
    edits of a group stand in the order in which they were made. -/
structure Buffer where
  text : Text
  cursor : Nat := 0
  undoable : List (List Edit) := []
  redoable : List (List Edit) := []
  /-- The edits of the group being recorded. -/
  pending : List Edit := []
  /-- How many groups are open. -/
  depth : Nat := 0
  deriving Repr, DecidableEq

/-- A replacement asked for a range that is not one of the text. -/
inductive RangeError where
  | outOfBounds
  deriving Repr, DecidableEq

/-- The wording of the error. -/
def RangeError.message : RangeError → Text
  | .outOfBounds => utf8 "range out of bounds"

namespace Buffer

/-- A buffer with no history and the cursor at the start. -/
def ofText (t : Text) : Buffer := { text := t }

/-! ## Lines -/

/-- The number of lines. -/
def lineCount (b : Buffer) : Nat := b.text.lineSpans.length

/-- The extent of line `n`; the empty extent at the nearer end of the text when there is no such
    line. -/
def lineSpan (b : Buffer) (n : Int) : LineSpan :=
  if n < 0 then ⟨0, 0⟩ else (b.text.lineSpans[n.toNat]?).getD ⟨b.text.length, b.text.length⟩

/-- The offset of the first byte of line `n`. -/
def lineStart (b : Buffer) (n : Int) : Nat := (b.lineSpan n).start

/-- The offset just past the last byte of line `n`. -/
def lineEnd (b : Buffer) (n : Int) : Nat := (b.lineSpan n).stop

/-- Line `n`, without its line end. -/
def line (b : Buffer) (n : Int) : Text := b.text.slice (b.lineStart n) (b.lineEnd n)

/-- The last of the lines `lo` to `hi` that starts at or before `offset`, where `lo` does. The lines
    that come into question are halved until one is left, which `hi - lo` steps are enough for. -/
def bisect (b : Buffer) (offset : Int) : Nat → Nat → Nat → Nat
  | 0, lo, _ => lo
  | steps + 1, lo, hi =>
    if lo < hi then
      let mid := (lo + hi + 1) / 2
      if (b.lineStart mid : Int) ≤ offset then b.bisect offset steps mid hi
      else b.bisect offset steps lo (mid - 1)
    else lo

/-- The last line that starts at or before `offset`; the first line when none does. -/
def lineAt (b : Buffer) (offset : Int) : Nat :=
  if offset ≤ 0 then 0 else b.bisect offset b.lineCount 0 (b.lineCount - 1)

/-- The line end the text uses first, a bare newline when it has none. -/
def lineEnding (b : Buffer) : Text :=
  match b.text.findByte? Byte.newline with
  | some (i + 1) =>
    if b.text[i]? == some Byte.carriageReturn then [Byte.carriageReturn, Byte.newline]
    else [Byte.newline]
  | _ => [Byte.newline]

/-! ## The cursor -/

/-- Move the cursor, at most to the ends of the text. -/
def moveCursor (b : Buffer) (offset : Int) : Buffer :=
  { b with cursor := min offset.toNat b.text.length }

/-! ## Edits -/

/-- Replace `oldLength` bytes at `start` by `new`. A cursor behind the replaced bytes moves along
    with the text it stands in, a cursor inside them moves behind their replacement. -/
def splice (b : Buffer) (start oldLength : Nat) (new : Text) : Buffer :=
  let stop := start + oldLength
  let text := b.text.take start ++ new ++ b.text.drop stop
  let cursor :=
    if stop ≤ b.cursor then b.cursor - oldLength + new.length
    else if start < b.cursor then start + new.length
    else b.cursor
  { b with text, cursor := min cursor text.length }

/-- Replace the bytes from `start` to `stop` by `new` and record the edit. A replacement that
    changes nothing is not recorded; any other one makes undone groups impossible to redo. -/
def replaceRange (b : Buffer) (start stop : Int) (new : Text) : Except RangeError Buffer :=
  if start < 0 || stop < start || stop > b.text.length then .error .outOfBounds
  else
    let edit : Edit := ⟨start.toNat, b.text.slice start.toNat stop.toNat, new⟩
    if edit.old = new then .ok b
    else
      let b : Buffer := { b.splice edit.start edit.old.length new with redoable := [] }
      .ok <|
        if 0 < b.depth then { b with pending := b.pending ++ [edit] }
        else { b with undoable := [edit] :: b.undoable }

/-! ## Groups -/

/-- Open a group. -/
def beginGroup (b : Buffer) : Buffer :=
  { b with pending := if b.depth = 0 then [] else b.pending, depth := b.depth + 1 }

/-- Close a group. Closing the outermost one records its edits, if there are any. -/
def endGroup (b : Buffer) : Buffer :=
  match b.depth with
  | 0 => b
  | 1 =>
    if b.pending.isEmpty then { b with depth := 0 }
    else { b with depth := 0, undoable := b.pending :: b.undoable, pending := [] }
  | depth + 1 => { b with depth }

/-- Take an edit back. -/
def revert (b : Buffer) (e : Edit) : Buffer := b.splice e.start e.new.length e.old

/-- Make an edit again. -/
def reapply (b : Buffer) (e : Edit) : Buffer := b.splice e.start e.old.length e.new

/-- Take back the latest group; `none` when there is none or a group is being recorded. -/
def undo? (b : Buffer) : Option Buffer :=
  if 0 < b.depth then none
  else match b.undoable with
    | [] => none
    | group :: earlier =>
      let b' := group.reverse.foldl revert b
      some { b' with undoable := earlier, redoable := group :: b.redoable }

/-- Make the latest undone group again; `none` when there is none or a group is being recorded. -/
def redo? (b : Buffer) : Option Buffer :=
  if 0 < b.depth then none
  else match b.redoable with
    | [] => none
    | group :: later =>
      let b' := group.foldl reapply b
      some { b' with undoable := group :: b.undoable, redoable := later }

/-- The number of groups that can be undone. -/
def undoDepth (b : Buffer) : Nat := b.undoable.length

end Buffer

end ModifierToggle
