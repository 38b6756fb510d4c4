import ModifierToggle.Buffer.Basic
import ModifierToggle.Comment
import ModifierToggle.Declaration.Model
import ModifierToggle.Language.Basic

set_option autoImplicit false

/-! # The lines of a declaration

A span of lines is looked at as a list of *code lines*: each line with its number, its text, and its
code, which is the text without comments. Comments are followed from the first line of the span on,
so a block comment that opens inside the span hides the lines it covers. Whatever the toggles find
out about a declaration, they find out from this list. -/

namespace ModifierToggle

/-- An inclusive range of lines, counted from zero. It need not lie inside a file. -/
structure Span where
  first : Int
  last : Int
  deriving Repr, DecidableEq

/-- A line with its comments set aside. -/
structure CodeLine where
  number : Nat
  text : Text
  code : Text
  deriving Repr, DecidableEq

/-- Where a declaration is opened: the line, and the extent of the keyword on it together with the
    white space byte after it. -/
structure Header where
  line : Nat
  start : Nat
  stop : Nat
  deriving Repr, DecidableEq

namespace CodeLine

/-- Pair lines with their code and number them from `first` on. -/
def numbered (first : Nat) : List (Text × Text) → List CodeLine
  | [] => []
  | (text, code) :: rest => ⟨first, text, code⟩ :: numbered (first + 1) rest

/-- The keyword on the line that opens a declaration. -/
def start? (lang : Language) (l : CodeLine) : Option Keyword.Occurrence := lang.findStart? l.code

/-- The part of the line where a modifier can stand: the code before the keyword that opens the
    declaration, and all the code on a line without one. -/
def searchable (lang : Language) (l : CodeLine) : Text :=
  match l.start? lang with
  | some at_ => l.code.take at_.start
  | none => l.code

end CodeLine

namespace Buffer

/-- The lines of a span that exist, with their code. -/
def codeLines (b : Buffer) (span : Span) : List CodeLine :=
  let first := span.first.toNat
  let texts := (b.text.lines.take (span.last + 1).toNat).drop first
  CodeLine.numbered first (texts.zip (Comment.stripLines false texts))

/-- The code of a line, where comments are followed from line `first` on, if that is above it. -/
def code (b : Buffer) (first line : Int) : Text :=
  match (b.codeLines ⟨min first line, line⟩).getLast? with
  | some l => if (l.number : Int) = line then l.code else []
  | none => []

/-- The first line of a span that holds a keyword which opens a declaration. -/
def findHeader? (b : Buffer) (lang : Language) (span : Span) : Option Header :=
  (b.codeLines span).findSome? fun l =>
    (l.start? lang).map fun at_ => ⟨l.number, at_.start, at_.next⟩

/-- The white space that does not count as content at the end of a line. -/
def isLineTail (x : UInt8) : Bool := Byte.isBlank x || x == Byte.carriageReturn

/-- The offset just past the last piece of code in a span. -/
def contentEnd? (b : Buffer) (span : Span) : Option Nat :=
  (b.codeLines span).reverse.findSome? fun l =>
    let content := l.code.trimEndWhile isLineTail
    if content.isEmpty then none else some (b.lineStart l.number + content.length)

end Buffer

namespace Member

/-- The lines of a declaration. -/
def span (m : Member) : Span := ⟨m.lineFrom, m.lineTo⟩

end Member

/-- Whether the cursor stands where a menu of toggles makes sense for a declaration: before the end
    of its keyword, at the end of the code on its header line, or at the end of all its code. -/
def Buffer.cursorOnHeader (b : Buffer) (lang : Language) (target : Member) : Bool :=
  match b.findHeader? lang target.span with
  | none => false
  | some header =>
    let start := b.lineStart header.line
    let code := (b.code target.lineFrom header.line).trimEndWhile Byte.isBlank
    b.cursor < start + header.stop
      || b.cursor == start + code.length
      || b.contentEnd? target.span == some b.cursor

end ModifierToggle
