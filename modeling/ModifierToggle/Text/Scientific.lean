import ModifierToggle.Text.Numeral
import ModifierToggle.Text.Decimal

set_option autoImplicit false

/-! # Decimal fractions

A number with a fraction or an exponent stands for the nearest number with 53 significant bits.
Where such a number is used as an integer, its fraction is cut off. -/

namespace ModifierToggle

/-- A decimal number: sign, digits without the point, and the power of ten of the last digit. -/
structure Scientific where
  negative : Bool
  mantissa : Nat
  exponent : Int
  deriving Repr, DecidableEq

namespace Scientific

/-- Read an optional sign, digits with an optional point among them, and an optional exponent. -/
def parse? (t : Text) : Option Scientific :=
  let (negative, rest) := Numeral.splitSign t
  let whole := rest.takeWhile Byte.isDigit
  let rest := rest.drop whole.length
  let (fraction, rest) :=
    match rest with
    | 0x2E :: more => (more.takeWhile Byte.isDigit, more.dropWhile Byte.isDigit)
    | rest => ([], rest)
  if whole.isEmpty && fraction.isEmpty then none
  else
    let exponent? : Option Int :=
      match rest with
      | [] => some 0
      | e :: more =>
        if e == 0x65 || e == 0x45 then
          let (down, digits) := Numeral.splitSign more
          (Decimal.toNat? digits).map fun n => if down then -(n : Int) else (n : Int)
        else none
    exponent?.map fun e =>
      { negative, mantissa := Decimal.value (whole ++ fraction), exponent := e - fraction.length }

/-- The number of binary digits. -/
def bitLength (n : Nat) : Nat := if n = 0 then 0 else n.log2 + 1

/-- Round a quotient to the nearest integer, a half to the even one. -/
def roundQuotient (num den : Nat) : Nat :=
  let q := num / den
  let twice := 2 * (num % den)
  if twice < den then q else if den < twice then q + 1 else q + q % 2

/-- The whole part of `num / den`, after rounding to 53 significant bits. -/
def wholeOfQuotient (num den : Nat) : Nat :=
  let size : Int := (bitLength (num / den) : Int)
  -- scale so that the quotient has 53 bits, round, and scale back
  let shift : Int := if size = 0 then 53 else 53 - size
  if 0 ≤ shift then roundQuotient (num * Nat.pow 2 shift.toNat) den / Nat.pow 2 shift.toNat
  else roundQuotient num (den * Nat.pow 2 (-shift).toNat) * Nat.pow 2 (-shift).toNat

/-- The largest power of ten, in magnitude, that is worked out. -/
def exponentLimit : Nat := 400

/-- The magnitude without its fraction; `none` when it is beyond what the format can hold. -/
def wholeMagnitude? (s : Scientific) : Option Nat :=
  if s.mantissa = 0 then some 0
  else
    let digits := (Decimal.ofNat s.mantissa).length
    if s.exponent + digits > exponentLimit then none
    else if s.exponent + digits < 0 then some 0
    else
      let whole :=
        if 0 ≤ s.exponent then wholeOfQuotient (s.mantissa * Nat.pow 10 s.exponent.toNat) 1
        else wholeOfQuotient s.mantissa (Nat.pow 10 (-s.exponent).toNat)
      if whole < Nat.pow 2 1024 then some whole else none

end Scientific

end ModifierToggle
