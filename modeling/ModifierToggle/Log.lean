import ModifierToggle.Declaration.Region

set_option autoImplicit false

/-! # Log events

What the program reports about its own work, as values. An event that arises while a toggle is
applied is kept with the toggle it belongs to. -/

namespace ModifierToggle

/-- One thing worth reporting. -/
inductive Event where
  | changedLine (line : Nat) (before after : Text)
  | nothingToMove (token : Text)
  | appliedToggle
  | noSuchModifier (modifier : Modifier)
  | noDeclarationKeyword (declaration : Text)
  | kindNotEditable
  | inspected (declaration : Text) (kind : Kind) (visibility : Text) (header : Nat)
  | builtMenu (kind : Kind) (actions : Nat)
  | unsupportedLanguage (language : Text)
  | noFile
  | cursorOffHeader (line : Nat)
  | openedSession (file language : Text) (cursor classes : Nat)
  deriving Repr, DecidableEq

/-- The toggle in the course of which an event arises. -/
structure ToggleScope where
  job : Text
  declaration : Text
  span : Span
  deriving Repr, DecidableEq

/-- An event, with the toggle it belongs to if there is one. -/
structure LogEntry where
  event : Event
  scope : Option ToggleScope := none
  deriving Repr, DecidableEq

/-- The wording of an event. -/
def Event.message : Event → Text
  | .changedLine .. => utf8 "rewrote declaration line"
  | .nothingToMove _ => utf8 "placement fixup found nothing to move"
  | .appliedToggle => utf8 "applied toggle"
  | .noSuchModifier _ => utf8 "language has no such modifier"
  | .noDeclarationKeyword _ => utf8 "no declaration keyword in range"
  | .kindNotEditable => utf8 "declaration kind not editable"
  | .inspected .. => utf8 "inspected declaration"
  | .builtMenu .. => utf8 "built toggle menu"
  | .unsupportedLanguage _ => utf8 "no context: unsupported language"
  | .noFile => utf8 "no context: no file"
  | .cursorOffHeader _ => utf8 "cursor is not on a declaration header"
  | .openedSession .. => utf8 "opened session"

end ModifierToggle
