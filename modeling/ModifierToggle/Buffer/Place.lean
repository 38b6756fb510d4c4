import ModifierToggle.Buffer.Basic
import ModifierToggle.Text.Cluster
import ModifierToggle.Text.Blank
import ModifierToggle.Text.Decimal
import ModifierToggle.Text.Quoted

set_option autoImplicit false

/-! # Places

A place is a line and a column, the column counted in grapheme clusters. Both count from zero inside
the program and from one where a place is written as `line:column`. -/

namespace ModifierToggle

/-- A line and a column, counted from zero. -/
structure Place where
  line : Int
  column : Int
  deriving Repr, DecidableEq

/-- Why a text is no place. -/
inductive PlaceError where
  | badLine (written : Text)
  | badColumn (written : Text)
  deriving Repr, DecidableEq

/-- The wording of the error. -/
def PlaceError.message : PlaceError → Text
  | .badLine written => utf8 "invalid line in position " ++ written.quoted
  | .badColumn written => utf8 "invalid column in position " ++ written.quoted

namespace Place

/-- A place as it is written, counting from one. -/
def render (p : Place) : Text :=
  Decimal.ofInt (p.line + 1) ++ [Byte.colon] ++ Decimal.ofInt (p.column + 1)

/-- A number that counts from one, as a number that counts from zero. -/
def ordinal? (t : Text) : Option Int :=
  (Decimal.toInt? t).bind fun n => if 1 ≤ n then some (n - 1) else none

/-- Read a place as it is written. Without a colon the text is a line, and the column is the
    first. -/
def parse (t : Text) : Except PlaceError Place :=
  let (line, column) := (t.trim.cut? Byte.colon).getD (t.trim, utf8 "1")
  match ordinal? line with
  | none => .error (.badLine t)
  | some line =>
    match ordinal? column with
    | none => .error (.badColumn t)
    | some column => .ok ⟨line, column⟩

end Place

namespace Buffer

/-- Why a place has no offset. -/
inductive OffsetError where
  /-- There is no such line. -/
  | range (cause : RangeError)
  /-- The clusters of the line cannot be found. -/
  | scan (line : Int) (reason : Text)
  deriving Repr, DecidableEq

/-- The wording of the error. -/
def OffsetError.message : OffsetError → Text
  | .range cause => cause.message
  | .scan line reason => utf8 "scanning line " ++ Decimal.ofInt line ++ utf8 ": " ++ reason

/-- The offset of a place, where `split` finds clusters. A column past the end of its line is the
    end of the line. -/
def offsetOf (split : Splitter) (b : Buffer) (p : Place) : Except OffsetError Nat :=
  if p.line < 0 || p.line ≥ b.lineCount then .error (.range .outOfBounds)
  else
    (split.offsetFrom (b.lineStart p.line) p.column.toNat (b.line p.line)).mapError (.scan p.line)

/-- Why an offset has no place: the columns of its line cannot be counted. -/
structure ColumnError where
  line : Int
  cause : ScanError
  deriving Repr, DecidableEq

/-- The wording of the error. -/
def ColumnError.message (e : ColumnError) : Text :=
  utf8 "counting columns on line " ++ Decimal.ofInt e.line ++ utf8 ": " ++ e.cause.message

/-- The place of an offset, where `split` finds clusters: its column is the number of clusters that
    are scanned on its line before it. An offset in a line end, or past the text, has the place of
    the line's end. -/
def placeOf (split : Splitter) (b : Buffer) (offset : Int) : Except ColumnError Place :=
  let line := b.lineAt offset
  let within := (offset - b.lineStart line).toNat
  match split.countScanned ((b.line line).take within) with
  | .ok column => .ok ⟨line, column⟩
  | .error cause => .error ⟨line, cause⟩

end Buffer

end ModifierToggle
