import ModifierToggle.Text.Basic

set_option autoImplicit false

/-! # Integers in several bases

An integer may be written in base 2, 8, 10 or 16: a leading `0b`, `0o` or `0x` announces the base,
and a leading zero alone announces base 8. Digits may be set apart with underscores, one at a time.
Reading goes from left to right, so a number that grows too large is refused as such even if the
text after it is malformed. -/

namespace ModifierToggle

/-- Why a text is no integer. -/
inductive NumeralError where
  | malformed
  | tooLarge
  deriving Repr, DecidableEq

namespace Numeral

/-- The number of values of a 64 bit word. -/
def wordValues : Nat := 18446744073709551616

/-- The number of values of a signed 64 bit word that are not negative. -/
def signedValues : Nat := 9223372036854775808

/-- The value of a digit in a base of up to 36. -/
def digitValue? (b : UInt8) : Option Nat :=
  if Byte.isDigit b then some (b.toNat - 0x30)
  else if 0x61 ≤ b && b ≤ 0x7A then some (b.toNat - 0x57)
  else if 0x41 ≤ b && b ≤ 0x5A then some (b.toNat - 0x37)
  else none

/-- Read digits into `n`, which may not pass 64 bits. Underscores are passed over when `gaps`
    holds. -/
def readDigits (base : Nat) (gaps : Bool) : Nat → Text → Except NumeralError Nat
  | n, [] => .ok n
  | n, b :: rest =>
    if gaps && b == Byte.underscore then readDigits base gaps n rest
    else match digitValue? b with
      | none => .error .malformed
      | some d =>
        if base ≤ d then .error .malformed
        else if wordValues ≤ n * base + d then .error .tooLarge
        else readDigits base gaps (n * base + d) rest

/-- The base a text without a sign announces, and its digits. -/
def splitBase (t : Text) : Nat × Text :=
  match t with
  | 0x30 :: letter :: c :: rest =>
    if letter == 0x62 || letter == 0x42 then (2, c :: rest)
    else if letter == 0x6F || letter == 0x4F then (8, c :: rest)
    else if letter == 0x78 || letter == 0x58 then (16, c :: rest)
    else (8, letter :: c :: rest)
  | 0x30 :: rest => (8, rest)
  | t => (10, t)

/-- Whether every underscore stands between two digits, where the announcement of the base counts as
    a digit. `before` tells what the previous byte was: a digit, an underscore, or neither. -/
def gapsWellPlaced : Option Bool → Text → Bool
  | before, [] => before != some false
  | before, b :: rest =>
    if b == Byte.underscore then before == some true && gapsWellPlaced (some false) rest
    else if (digitValue? b).isSome then gapsWellPlaced (some true) rest
    else before != some false && gapsWellPlaced none rest

/-- Whether the underscores of a text without a sign are well placed. -/
def gapsAllowed (t : Text) : Bool :=
  match t with
  | 0x30 :: letter :: rest =>
    if [0x62, 0x42, 0x6F, 0x4F, 0x78, 0x58].contains letter then gapsWellPlaced (some true) rest
    else gapsWellPlaced none t
  | t => gapsWellPlaced none t

/-- The sign of a text, and the rest. -/
def splitSign (t : Text) : Bool × Text :=
  match t with
  | 0x2D :: rest => (true, rest)
  | 0x2B :: rest => (false, rest)
  | t => (false, t)

/-- Give a magnitude its sign; the result has to fit a signed 64 bit word. -/
def signed (negative : Bool) (n : Nat) : Except NumeralError Int :=
  if negative then if n ≤ signedValues then .ok (-(n : Int)) else .error .tooLarge
  else if n < signedValues then .ok n else .error .tooLarge

/-- Read a magnitude in the base it announces. -/
def readMagnitude (t : Text) : Except NumeralError Nat :=
  if t.isEmpty then .error .malformed
  else
    let (base, digits) := splitBase t
    match readDigits base true 0 digits with
    | .error e => .error e
    | .ok n =>
      if t.contains Byte.underscore && !gapsAllowed t then .error .malformed else .ok n

/-- Read an integer in the base it announces. -/
def toInt (t : Text) : Except NumeralError Int :=
  let (negative, rest) := splitSign t
  (readMagnitude rest).bind (signed negative)

/-- Read an integer in a given base. -/
def toIntIn (base : Nat) (t : Text) : Except NumeralError Int :=
  let (negative, rest) := splitSign t
  if rest.isEmpty then .error .malformed
  else (readDigits base false 0 rest).bind (signed negative)

end Numeral

end ModifierToggle
