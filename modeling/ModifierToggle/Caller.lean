import ModifierToggle.Style

set_option autoImplicit false

/-! # Where a log line comes from

A verbose log line tells which package, file and line it was written in. The package is found from
the full name of a function, which is a path, a point, and the name of the function in its package;
the path may hold points of its own, but not behind its last slash. -/

namespace ModifierToggle

/-- A function's package and its name there. -/
structure FunctionName where
  package : Text
  function : Text
  deriving Repr, DecidableEq

namespace FunctionName

/-- The offset of the last slash, or zero. -/
def lastSlash (t : Text) : Nat :=
  match Text.findByte? Byte.slash t.reverse with
  | some i => t.length - 1 - i
  | none => 0

/-- The offset where the package of a full name ends: the first point at or behind the last slash,
    or else the place before that slash; `none` when there is no such place. -/
def packageEnd? (t : Text) : Option Nat :=
  let start := lastSlash t
  match Text.findByte? Byte.dot (t.drop start) with
  | some i => some (start + i)
  | none => if start = 0 then none else some (start - 1)

/-- The parts of a text around the first `.(`, the second one up to the next. -/
def cutReceiver? (t : Text) : Option (Text × Text) :=
  (Text.find? (utf8 ".(") t).map fun i =>
    let behind : Text := t.drop (i + 2)
    (t.take i, match Text.find? (utf8 ".(") behind with
      | some j => behind.take j
      | none => behind)

/-- Read a full name; `none` when it has no package. A receiver in parentheses belongs to the name
    in the package, also when a slash in it puts it before the point. -/
def ofText? (t : Text) : Option FunctionName :=
  (packageEnd? t).map fun stop =>
    let package : Text := t.take stop
    let function : Text := t.drop (stop + 1)
    match cutReceiver? package with
    | some (outer, receiver) =>
      ⟨outer, utf8 "(" ++ receiver ++ utf8 "." ++ function⟩
    | none => ⟨package, function⟩

end FunctionName

/-- A place in source code. -/
structure Caller where
  package : Text
  path : Text
  line : Int
  deriving Repr, DecidableEq

namespace Caller

/-- The last part of a path. -/
def fileName (path : Text) : Text := (Text.splitOn Byte.slash path).getLastD path

/-- Package, file and line, with colons between them. -/
def render (c : Caller) (styled : Bool) : Text :=
  let colon := (utf8 ":").styled styled [.faint]
  c.package ++ colon ++ (fileName c.path).styled styled [.bold] ++ colon
    ++ Text.styled (Decimal.ofInt c.line) styled [.brightRed, .bold]

end Caller

end ModifierToggle
