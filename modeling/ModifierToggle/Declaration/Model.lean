import ModifierToggle.Text.LetterCase

set_option autoImplicit false

/-! # Declarations as an engine reports them

A completion engine tells which classes and members a file declares, on which lines, and what it
knows about them. The line ranges are inclusive and count from zero; they may lie outside the file,
since the file may have changed since. -/

namespace ModifierToggle

/-! ## Flags -/

/-- What a class or member is, as a set of bits. -/
structure Flags where
  bits : UInt32
  deriving Repr, DecidableEq

namespace Flags

abbrev classFlag : Flags := ⟨1⟩
abbrev function : Flags := ⟨4⟩
abbrev constructor : Flags := ⟨8⟩
abbrev variableFlag : Flags := ⟨16⟩
abbrev getter : Flags := ⟨32⟩
abbrev setter : Flags := ⟨64⟩
abbrev constant : Flags := ⟨128⟩
abbrev localVariable : Flags := ⟨256⟩
abbrev static : Flags := ⟨512⟩
abbrev final : Flags := ⟨1024⟩
abbrev external : Flags := ⟨2048⟩

/-- The flags and their names, in the order in which they are shown. -/
def table : List (Flags × Text) :=
  [(classFlag, utf8 "class"), (⟨2⟩, utf8 "interface"), (function, utf8 "function"),
   (constructor, utf8 "constructor"), (variableFlag, utf8 "variable"), (getter, utf8 "getter"),
   (setter, utf8 "setter"), (constant, utf8 "constant"), (localVariable, utf8 "localvar"),
   (static, utf8 "static"), (final, utf8 "final"), (external, utf8 "extern")]

/-- The flags of either set. -/
def union (f g : Flags) : Flags := ⟨f.bits ||| g.bits⟩

/-- Whether any flag of `g` is in `f`. -/
def has (f g : Flags) : Bool := f.bits &&& g.bits != 0

/-- The names of the flags, with bars between them. -/
def render (f : Flags) : Text :=
  Text.join (utf8 "|") ((table.filter fun (g, _) => f.has g).map (·.2))

/-- The flag with a given name, in any case and with white space around it. -/
def ofName? (name : Text) : Option Flags :=
  (table.find? fun (_, n) => n == name.nameKey).map (·.1)

end Flags

/-! ## Access -/

/-- The visibility an engine reports, as a set of bits. -/
structure Access where
  bits : UInt32
  deriving Repr, DecidableEq

namespace Access

/-- The bit of an access name of the user's own. -/
abbrev custom : Access := ⟨16⟩

/-- The bits and their names; the first one that is set counts. -/
def table : List (Access × Text) :=
  [(⟨1⟩, utf8 "public"), (⟨2⟩, utf8 "private"), (⟨4⟩, utf8 "protected"), (⟨8⟩, utf8 "internal"),
   (custom, utf8 "namespace")]

/-- Whether any bit of `b` is in `a`. -/
def has (a b : Access) : Bool := a.bits &&& b.bits != 0

/-- The name of the first bit that is set; empty when none is. -/
def render (a : Access) : Text := ((table.find? fun (b, _) => a.has b).map (·.2)).getD []

/-- The bit with a given name, in any case and with white space around it. -/
def ofName? (name : Text) : Option Access :=
  (table.find? fun (_, n) => n == name.nameKey).map (·.1)

end Access

/-! ## Members, classes, files -/

/-- A class or a member of one: its extent and what the engine knows about it. -/
structure Member where
  name : Text
  lineFrom : Int
  lineTo : Int
  flags : Flags := ⟨0⟩
  access : Access := ⟨0⟩
  /-- The access name, for a member with custom access. -/
  accessName : Text := []
  deriving Repr, DecidableEq

namespace Member

/-- Whether a line belongs to the member. -/
def contains (m : Member) (line : Int) : Bool := m.lineFrom ≤ line && line ≤ m.lineTo

/-- The visibility the engine reports; empty when it reports none. -/
def visibility (m : Member) : Text :=
  if m.access.has .custom && !m.accessName.isEmpty then m.accessName else m.access.render

end Member

/-- A class with its members, in order. -/
structure ClassModel where
  declaration : Member
  members : List Member := []
  deriving Repr, DecidableEq

/-- What an engine knows about one file. -/
structure FileModel where
  path : Text := []
  language : Text := []
  classes : List ClassModel := []
  deriving Repr, DecidableEq

/-! ## Finding the declaration at a line -/

/-- The class a line belongs to and, if there is one, the member of it. -/
structure Found where
  enclosing : ClassModel
  member : Option Member
  deriving Repr, DecidableEq

/-- The declaration that a toggle edits: the member when there is one, else the class. -/
def Found.target (f : Found) : Member := f.member.getD f.enclosing.declaration

/-- The first class a line belongs to, with the first of its members the line belongs to. -/
def FileModel.locate? (m : FileModel) (line : Int) : Option Found :=
  (m.classes.find? (·.declaration.contains line)).map fun c =>
    ⟨c, c.members.find? (·.contains line)⟩

end ModifierToggle
