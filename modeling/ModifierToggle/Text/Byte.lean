set_option autoImplicit false

/-! # Bytes of source text

Source text is handled byte by byte, because every offset the toggles work with is a byte offset.
The structure of a declaration only ever hangs on ASCII bytes, and this file names those bytes and
the classes of bytes the rules are stated over. -/

namespace ModifierToggle.Byte

/-! ## Named bytes -/

abbrev tab : UInt8 := 0x09
abbrev newline : UInt8 := 0x0A
abbrev formFeed : UInt8 := 0x0C
abbrev carriageReturn : UInt8 := 0x0D
abbrev space : UInt8 := 0x20
abbrev dollar : UInt8 := 0x24
abbrev star : UInt8 := 0x2A
abbrev minus : UInt8 := 0x2D
abbrev dot : UInt8 := 0x2E
abbrev slash : UInt8 := 0x2F
abbrev colon : UInt8 := 0x3A
abbrev atSign : UInt8 := 0x40
abbrev underscore : UInt8 := 0x5F

/-! ## Classes of bytes -/

/-- An ASCII letter. -/
def isLetter (b : UInt8) : Bool :=
  (0x61 ≤ b && b ≤ 0x7A) || (0x41 ≤ b && b ≤ 0x5A)

/-- An ASCII digit. -/
def isDigit (b : UInt8) : Bool :=
  0x30 ≤ b && b ≤ 0x39

/-- A space or a tab: what separates modifiers on a line. -/
def isBlank (b : UInt8) : Bool :=
  b == space || b == tab

/-- The white space that ends a keyword: tab, newline, form feed, carriage return and space. -/
def isSeparator (b : UInt8) : Bool :=
  b == tab || b == newline || b == formFeed || b == carriageReturn || b == space

/-- A byte of a plain word: a letter, a digit or an underscore. -/
def isPlainWord (b : UInt8) : Bool :=
  b == underscore || isLetter b || isDigit b

/-- A byte that, standing before a keyword, makes it part of a longer word: a plain word byte or one
    of `@`, `:` and `$`, which occur in annotations and identifiers. -/
def isWord (b : UInt8) : Bool :=
  isPlainWord b || b == atSign || b == colon || b == dollar

/-- A byte a modifier can start with: a letter, `@` or `:`. -/
def startsModifier (b : UInt8) : Bool :=
  b == atSign || b == colon || isLetter b

end ModifierToggle.Byte
