import ModifierToggle.Text.Basic

set_option autoImplicit false

/-! # Decimal numbers

Whole numbers are written in decimal without leading zeros, and read back from an optional sign
followed by digits. Reading refuses what does not fit a signed 64 bit word. -/

namespace ModifierToggle.Decimal

/-- The digit with value `n`, for `n < 10`. -/
def digit (n : Nat) : UInt8 := UInt8.ofNat (0x30 + n)

/-- The value of a digit. -/
def digitValue (b : UInt8) : Nat := b.toNat - 0x30

/-- The decimal digits of a natural number. -/
def ofNat (n : Nat) : Text :=
  if n < 10 then [digit n] else ofNat (n / 10) ++ [digit (n % 10)]
termination_by n

/-- An integer in decimal, with a minus sign when it is negative. -/
def ofInt : Int → Text
  | .ofNat n => ofNat n
  | .negSucc n => Byte.minus :: ofNat (n + 1)

/-- The number a sequence of digits stands for. -/
def value (digits : Text) : Nat := digits.foldl (fun n b => n * 10 + digitValue b) 0

/-- A non-empty sequence of digits, as a number. -/
def toNat? (t : Text) : Option Nat :=
  if !t.isEmpty && t.all Byte.isDigit then some (value t) else none

/-- Whether an integer fits a signed 64 bit word. -/
def inWord (n : Int) : Bool := -9223372036854775808 ≤ n && n ≤ 9223372036854775807

/-- An optional sign and digits, as an integer that fits a signed 64 bit word. -/
def toInt? (t : Text) : Option Int :=
  let number : Option Int :=
    match t with
    | 0x2D :: digits => (toNat? digits).map fun n => -(n : Int)
    | 0x2B :: digits => (toNat? digits).map fun n => (n : Int)
    | digits => (toNat? digits).map fun n => (n : Int)
  number.filter inWord

end ModifierToggle.Decimal
