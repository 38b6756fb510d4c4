import ModifierToggle.Log

set_option autoImplicit false

/-! # Inspecting a declaration

Inspection classifies a declaration and collects the modifiers it has. An engine's word is taken
first: what it reports about visibility, and that a declaration is static, final or extern, stands
without a look at the text. For the rest the header span is searched: the lines from the start of
the declaration to the line with its keyword, and on that line only what stands before the keyword.
-/

namespace ModifierToggle

/-- What is known about a declaration after inspection. -/
structure Inspection where
  found : Found
  kind : Kind
  header : Header
  visibility : Text
  /-- The modifiers the declaration has. -/
  present : List Modifier
  deriving Repr, DecidableEq

namespace Inspection

/-- The declaration that was inspected. -/
def target (s : Inspection) : Member := s.found.target

/-- Whether the declaration has a modifier. -/
def has (s : Inspection) (m : Modifier) : Bool := s.present.contains m

/-- The header span: the lines a modifier of the declaration can stand on. -/
def span (s : Inspection) : Span := ⟨s.target.lineFrom, s.header.line⟩

end Inspection

/-- The kind of a declaration, told by the engine's flags. -/
def Found.kind (f : Found) : Kind :=
  match f.member with
  | none => .classDecl
  | some m =>
    if m.flags.has .constructor then .constructor
    else if m.flags.has .function then .method
    else if !m.flags.has .localVariable
        && m.flags.has (((Flags.variableFlag.union .getter).union .setter).union .constant) then
      .field
    else .none

namespace Buffer

/-- The texts in which modifiers of a declaration are looked for: the code of the header span, on
    the header line only up to the keyword. -/
def modifierTexts (b : Buffer) (first : Int) (header : Header) : List Text :=
  (b.codeLines ⟨first, header.line⟩).map fun l =>
    if l.number = header.line then l.code.take header.start else l.code

/-- Whether a token occurs among the modifiers of a declaration. -/
def hasToken (b : Buffer) (first : Int) (header : Header) (tok : Token) : Bool :=
  (b.modifierTexts first header).any fun t => (tok.find? t).isSome

/-- Whether a declaration has a modifier: its token occurs, or the engine says so. -/
def hasModifier (b : Buffer) (lang : Language) (target : Member) (header : Header) (m : Modifier) :
    Bool :=
  (lang.token? m).any (b.hasToken target.lineFrom header)
    || (m == .static && target.flags.has .static)
    || (m == .final && target.flags.has .final)
    || (m == .external && target.flags.has .external)

/-- The visibility of a declaration: the one the engine reports, else the one spelled out before the
    keyword, else the one that goes without saying. -/
def visibilityOf (b : Buffer) (lang : Language) (kind : Kind) (target : Member) (header : Header) :
    Text :=
  if target.visibility.isEmpty then
    let before : Text := (b.code target.lineFrom header.line).take header.start
    match lang.findVisibility? before with
    | some at_ => before.slice at_.start at_.stop
    | none => lang.implicitVisibility kind
  else target.visibility

/-- Inspect a declaration; `none` when it cannot be edited. -/
def inspect? (b : Buffer) (lang : Language) (found : Found) : Option Inspection :=
  if found.kind = .none then none
  else (b.findHeader? lang found.target.span).map fun header =>
    { found, kind := found.kind, header
      visibility := b.visibilityOf lang found.kind found.target header
      present := Modifier.all.filter (b.hasModifier lang found.target header) }

/-- What inspecting reports. A line that belongs to no declaration has no kind to edit. -/
def inspectEvents (b : Buffer) (lang : Language) (found : Option Found) : List Event :=
  match found with
  | none => [.kindNotEditable]
  | some found =>
    match b.inspect? lang found with
    | some s => [.inspected s.target.name s.kind s.visibility s.header.line]
    | none =>
      if found.kind = .none then [.kindNotEditable]
      else [.noDeclarationKeyword found.target.name]

end Buffer

end ModifierToggle
