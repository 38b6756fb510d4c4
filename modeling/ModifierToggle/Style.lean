import ModifierToggle.Text.Decimal

set_option autoImplicit false

/-! # Styled output

What goes to a terminal may be bold, faint or coloured. A styled text stands between a sequence that
turns its styles on and one that turns them off again; without styling it is the text itself. -/

namespace ModifierToggle

/-- A style of the terminal. -/
inductive Style where
  | bold
  | faint
  | red
  | green
  | cyan
  | brightRed
  deriving Repr, DecidableEq

namespace Style

/-- The number that turns a style on. -/
def code : Style → Nat
  | .bold => 1
  | .faint => 2
  | .red => 31
  | .green => 32
  | .cyan => 36
  | .brightRed => 91

/-- The number that turns a style off: intensity has one of its own, a colour goes with everything
    else. -/
def resetCode : Style → Nat
  | .bold => 22
  | .faint => 22
  | _ => 0

/-- The control sequence with some numbers. -/
def sequence (codes : List Nat) : Text :=
  utf8 "\x1b[" ++ Text.join (utf8 ";") (codes.map Decimal.ofNat) ++ utf8 "m"

end Style

/-- A text in some styles, if styling is on. -/
def Text.styled (t : Text) (on : Bool) (styles : List Style) : Text :=
  if on then
    Style.sequence (styles.map Style.code) ++ t ++ Style.sequence (styles.map Style.resetCode)
  else t

end ModifierToggle
