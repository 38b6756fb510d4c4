import ModifierToggle.Text.Basic

set_option autoImplicit false

/-! # Line ends

A line may end with a newline, a carriage return, or a carriage return followed by a newline. A file
is saved with one kind of line end throughout, when its settings name one. -/

namespace ModifierToggle.Text

/-- Write every line end of a text as `ending`. Line ends of two bytes become newlines first, then
    those that are a carriage return alone, and then every newline becomes `ending`. -/
def withLineEndings (ending t : Text) : Text :=
  let t := replaceAll [Byte.carriageReturn, Byte.newline] [Byte.newline] t
  let t := replaceAll [Byte.carriageReturn] [Byte.newline] t
  if ending == [Byte.newline] then t else replaceAll [Byte.newline] ending t

end ModifierToggle.Text
