import ModifierToggle.Keyword

set_option autoImplicit false

/-! # Kinds of declarations and their modifiers

A *modifier* is a concept such as "static"; a *token* is how a language spells it, which
declarations it applies to, and where on the header line it belongs. -/

namespace ModifierToggle

/-- What a declaration is, as far as modifiers are concerned. -/
inductive Kind where
  | none
  | classDecl
  | constructor
  | method
  | field
  deriving Repr, DecidableEq

namespace Kind

/-- The kinds, in their fixed order. -/
def all : List Kind := [.none, .classDecl, .constructor, .method, .field]

/-- The name of a kind. -/
def name : Kind → Text
  | .none => utf8 "none"
  | .classDecl => utf8 "class"
  | .constructor => utf8 "constructor"
  | .method => utf8 "method"
  | .field => utf8 "field"

/-- The kind with a given number; a number that belongs to none is no kind. -/
def ofNumber (n : Int) : Kind :=
  if n < 0 then .none else all[n.toNat]?.getD .none

end Kind

/-- A modifier other than a visibility. -/
inductive Modifier where
  | static
  | final
  | external
  | inlined
  | noCompletion
  deriving Repr, DecidableEq

namespace Modifier

/-- The modifiers, in their fixed order. -/
def all : List Modifier := [.static, .final, .external, .inlined, .noCompletion]

/-- The name of a modifier. -/
def name : Modifier → Text
  | .static => utf8 "static"
  | .final => utf8 "final"
  | .external => utf8 "extern"
  | .inlined => utf8 "inline"
  | .noCompletion => utf8 "nocompletion"

/-- The modifier with a given number; the first has number 1. -/
def ofNumber? (n : Int) : Option Modifier :=
  if n < 1 then none else all[n.toNat - 1]?

end Modifier

/-- Where a token lives among the modifiers of a header in canonical order. -/
inductive Position where
  | leadingVisibility
  | leadingSpecial
  | trailingSpecial
  | metadata
  deriving Repr, DecidableEq

/-- Where on its line a token has to stand. -/
inductive Placement where
  /-- Anywhere. -/
  | free
  /-- First on the line, after the indentation. -/
  | lineStart
  /-- Directly before the keyword that opens the declaration. -/
  | beforeKeyword
  deriving Repr, DecidableEq

/-- One spelling of a modifier. -/
structure Token where
  modifier : Modifier
  keyword : Text
  position : Position
  placement : Placement
  /-- The kinds of declarations the modifier applies to. -/
  targets : List Kind
  /-- How occurrences of the token are recognised. -/
  pattern : Keyword.Pattern
  deriving Repr, DecidableEq

namespace Token

/-- The pattern that recognises `keyword`. The empty keyword occurs nowhere. -/
def patternOf (keyword : Text) : Keyword.Pattern :=
  { words := if keyword.isEmpty then [] else [keyword], nominal := true }

/-- A token recognised by its keyword. -/
def new (modifier : Modifier) (keyword : Text) (position : Position) (placement : Placement)
    (targets : List Kind) : Token :=
  { modifier, keyword, position, placement, targets, pattern := patternOf keyword }

/-- The first occurrence of the token that stands alone. -/
def find? (tok : Token) (t : Text) : Option Keyword.Occurrence := tok.pattern.find? t

/-- Whether the token applies to declarations of a kind. -/
def appliesTo (tok : Token) (k : Kind) : Bool := tok.targets.contains k

end Token

end ModifierToggle
