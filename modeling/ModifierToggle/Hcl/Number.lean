import ModifierToggle.Text.Scientific

set_option autoImplicit false

/-! # Numbers with many digits

A number of a settings file has a number of significant bits: 512 if it is written, more than anyone
writes, so that sums and products of what people write are exact, and 64 if it is the place of an
item in a list. The result of an operation has as many bits as the wider operand, and is rounded to
them, a half to the even neighbour; a product may have more, up to 512, if it takes that many. A
number is written with the fewest digits that read back. Zero has a sign, and what is divided by
zero grows without bound. -/

namespace ModifierToggle.Hcl

/-- The size of a number: `mantissa * 2 ^ exponent`, where the mantissa is odd or zero, or no
    bound. -/
inductive Magnitude where
  | finite (mantissa : Nat) (exponent : Int)
  | unbounded
  deriving Repr

namespace Magnitude

def zero : Magnitude := .finite 0 0

/-- The least power of two above a magnitude may not be below `2 ^ leastScale`. -/
def leastScale : Int := -2147483648

/-- The least power of two above a magnitude may not be above `2 ^ largestScale`. -/
def largestScale : Int := 2147483647

/-- Divide out powers of two. -/
def strip : Nat → Nat → Int → Nat × Int
  | 0, m, e => (m, e)
  | fuel + 1, m, e => if m % 2 = 0 then strip fuel (m / 2) (e + 1) else (m, e)

/-- The power of two above `mantissa * 2 ^ exponent`. -/
def scale (mantissa : Nat) (exponent : Int) : Int := exponent + Scientific.bitLength mantissa

/-- Round to a number of bits. What is too large has no bound, and what is too small is zero. -/
def round (precision mantissa : Nat) (exponent : Int) : Magnitude :=
  let excess := Scientific.bitLength mantissa - precision
  let rounded := Scientific.roundQuotient mantissa (Nat.pow 2 excess)
  let (m, e) := strip (precision + 1) rounded (exponent + excess)
  if m = 0 || scale m e < leastScale then zero
  else if largestScale < scale m e then .unbounded
  else .finite m e

/-- The number of bits that a magnitude takes. -/
def width : Magnitude → Nat
  | .finite m _ => Scientific.bitLength m
  | .unbounded => 0

/-- The product, of which a part without bound is not joined with zero. -/
def mul (precision : Nat) : Magnitude → Magnitude → Magnitude
  | .finite m e, .finite n f => round precision (m * n) (e + f)
  | _, _ => .unbounded

/-- The quotient by a magnitude that is not zero, of two that do not both have no bound. -/
def div (precision : Nat) : Magnitude → Magnitude → Magnitude
  | .unbounded, _ => .unbounded
  | .finite .., .unbounded => zero
  | .finite m e, .finite n f =>
    -- more bits than are kept, and a last one to tell whether anything is left over
    let shift := precision + 2 + Scientific.bitLength n - Scientific.bitLength m
    let num := m * Nat.pow 2 shift
    let last := if num % n = 0 then 0 else 1
    round precision (2 * (num / n) + last) (e - f - shift - 1)

/-- The distance of exponents from which on a part of a sum only tells on which side of the other
    part the sum lies. -/
def reach : Int := 4096

/-- The sum of two numbers, by sign, mantissa and exponent of each. -/
def sum (precision : Nat) (s : Bool) (m : Nat) (e : Int) (t : Bool) (n : Nat) (f : Int) :
    Bool × Magnitude :=
  let low := max (min e f) (max e f - reach)
  let part (negative : Bool) (m : Nat) (e : Int) : Int :=
    let units := if low ≤ e then m * Nat.pow 2 (e - low).toNat else 1
    if negative then -(units : Int) else units
  let total := part s m e + part t n f
  (total < 0, round precision total.natAbs low)

/-- Whether a magnitude is the smaller one. -/
def lt : Magnitude → Magnitude → Bool
  | .unbounded, _ => false
  | .finite .., .unbounded => true
  | .finite m e, .finite n f =>
    if m = 0 || n = 0 then m < n
    else if scale m e ≠ scale n f then scale m e < scale n f
    else
      let low := min e f
      m * Nat.pow 2 (e - low).toNat < n * Nat.pow 2 (f - low).toNat

end Magnitude

/-- A number with a sign, rounded to `precision` bits. -/
structure Number where
  precision : Nat
  negative : Bool
  magnitude : Magnitude
  deriving Repr

namespace Number

/-- The number of significant bits of a number that is written. -/
def writtenPrecision : Nat := 512

/-- The number of significant bits of the place of an item. -/
def placePrecision : Nat := 64

/-- The place of an item of a list. -/
def ofPlace (i : Nat) : Number := ⟨placePrecision, false, .round placePrecision i 0⟩

/-! ## Arithmetic

Nothing comes of adding numbers without bound of opposite signs, nor of multiplying one by zero, nor
of dividing one by another or zero by zero. -/

def neg (x : Number) : Number := { x with negative := !x.negative }

/-- The sum, with a number of bits. It is a negative zero only if both parts are. -/
def addTo? (precision : Nat) (x y : Number) : Option Number :=
  match x.magnitude, y.magnitude with
  | .unbounded, .unbounded => if x.negative == y.negative then some x else none
  | .unbounded, .finite .. => some x
  | .finite .., .unbounded => some y
  | .finite m e, .finite n f =>
    if m = 0 && n = 0 then some ⟨precision, x.negative && y.negative, .zero⟩
    else if m = 0 then some ⟨precision, y.negative, .round precision n f⟩
    else if n = 0 then some ⟨precision, x.negative, .round precision m e⟩
    else
      let (negative, magnitude) := Magnitude.sum precision x.negative m e y.negative n f
      some ⟨precision, negative, magnitude⟩

/-- The product, with a number of bits. -/
def mulTo? (precision : Nat) (x y : Number) : Option Number :=
  match x.magnitude, y.magnitude with
  | .unbounded, .finite 0 _ => none
  | .finite 0 _, .unbounded => none
  | m, n => some ⟨precision, x.negative != y.negative, .mul precision m n⟩

/-- The number of bits of the wider one. -/
def wider (x y : Number) : Nat := max x.precision y.precision

def add? (x y : Number) : Option Number := addTo? (wider x y) x y

def sub? (x y : Number) : Option Number := x.add? y.neg

/-- The product, with the bits of the wider factor or as many more as it takes. -/
def mul? (x y : Number) : Option Number :=
  (mulTo? writtenPrecision x y).map fun z =>
    { z with precision := max (wider x y) z.magnitude.width }

def div? (x y : Number) : Option Number :=
  let result (m : Magnitude) : Number := ⟨wider x y, x.negative != y.negative, m⟩
  match x.magnitude, y.magnitude with
  | .unbounded, .unbounded => none
  | .finite 0 _, .finite 0 _ => none
  | .finite .., .finite 0 _ => some (result .unbounded)
  | m, n => some (result (.div (wider x y) m n))

/-- The number without its fraction, with a number of bits. Zero stands in for a number without
    bound. -/
def truncateTo (precision : Nat) (x : Number) : Number :=
  match x.magnitude with
  | .unbounded => ⟨precision, false, .zero⟩
  | .finite m e =>
    if 0 ≤ e then ⟨precision, x.negative, .round precision m e⟩
    else
      let whole := m / Nat.pow 2 (min (-e).toNat (Scientific.bitLength m))
      ⟨precision, x.negative && whole ≠ 0, .round precision whole 0⟩

/-- What is left after taking away a whole multiple of `y`, with the sign of `x`. A remainder by
    zero is the number itself, and so is that of a number without bound. -/
def mod? (x y : Number) : Option Number :=
  match y.magnitude with
  | .finite 0 _ => some x
  | _ => do
    let multiple ← mulTo? x.precision y ((← x.div? y).truncateTo x.precision)
    addTo? x.precision x multiple.neg

def lt (x y : Number) : Bool :=
  let isZero (m : Magnitude) : Bool := m matches .finite 0 _
  if isZero x.magnitude && isZero y.magnitude then false
  else if isZero x.magnitude then !y.negative
  else if isZero y.magnitude then x.negative
  else if x.negative != y.negative then x.negative
  else if x.negative then y.magnitude.lt x.magnitude
  else x.magnitude.lt y.magnitude

/-- The place in a list that a number stands for, if it is a whole one that fits a word. -/
def toPlace? (x : Number) : Option Nat :=
  match x.magnitude with
  | .unbounded => none
  | .finite m e =>
    if m = 0 then some 0
    else if x.negative || e < 0 || 63 < Magnitude.scale m e then none
    else some (m * Nat.pow 2 e.toNat)

/-! ## Writing -/

/-- The least power of ten above `num / den`, searched from `k` on. -/
def tensAbove (num den : Nat) : Nat → Int → Int
  | 0, k => k
  | fuel + 1, k =>
    let above :=
      if 0 ≤ k then num < den * Nat.pow 10 k.toNat else num * Nat.pow 10 (-k).toNat < den
    if above then k else tensAbove num den fuel (k + 1)

/-- Search for the fewest digits, from `n` on, of which the number they stand for lies between
    `(num - gap) / den` and `(num + gap) / den`; the ends count when `closed`. Gives the digits and
    the power of ten of the last of them. -/
def shortest (num gap den : Nat) (closed : Bool) (k : Int) : Nat → Nat → Nat × Int
  | 0, n => (0, k - n)
  | fuel + 1, n =>
    let e : Int := k - n
    -- in units of the last digit: the number, and the ends of the interval
    let scale (m : Nat) : Nat := if 0 ≤ e then m else m * Nat.pow 10 (-e).toNat
    let unit : Nat := if 0 ≤ e then den * Nat.pow 10 e.toNat else den
    let down := scale num / unit
    let lower := scale (num - gap)
    let upper := scale (num + gap)
    let okDown := lower < down * unit || (closed && lower == down * unit)
    let okUp := (down + 1) * unit < upper || (closed && (down + 1) * unit == upper)
    if okDown && okUp then (Scientific.roundQuotient (scale num) unit, e)
    else if okDown then (down, e)
    else if okUp then (down + 1, e)
    else shortest num gap den closed k fuel (n + 1)

/-- Divide out powers of ten. -/
def stripTens : Nat → Nat → Int → Nat × Int
  | 0, m, e => (m, e)
  | fuel + 1, m, e => if m % 10 = 0 then stripTens fuel (m / 10) (e + 1) else (m, e)

/-- The fewest digits that read back as `mantissa * 2 ^ exponent` with a number of bits, and the
    power of ten of the last of them. The last digit is not zero. -/
def digits (precision mantissa : Nat) (exponent : Int) : Nat × Int :=
  -- the mantissa at full width, and half of its last place as `gap / den`
  let shift := precision - Scientific.bitLength mantissa
  let m := mantissa * Nat.pow 2 shift
  let e : Int := exponent - shift - 1
  let gap := if 0 ≤ e then Nat.pow 2 e.toNat else 1
  let den := if 0 ≤ e then 1 else Nat.pow 2 (-e).toNat
  -- a power of two has about 0.30103 digits for each bit
  let k := tensAbove (2 * m * gap) den 64
    ((Magnitude.scale mantissa exponent - 1) * 30103 / 100000 - 8)
  let (ds, last) := shortest (2 * m * gap) gap den (m % 2 == 0) k (precision + 1) 1
  stripTens (precision + 1) ds last

/-- Digits with the last of them at a power of ten, written without an exponent. -/
def positional (digits : Nat) (e : Int) : Text :=
  if 0 ≤ e then Decimal.ofNat digits ++ List.replicate e.toNat 0x30
  else
    let places := (-e).toNat
    let all := Decimal.ofNat digits
    let all := List.replicate (places + 1 - all.length) 0x30 ++ all
    all.take (all.length - places) ++ Byte.dot :: all.drop (all.length - places)

/-- A number in decimal. -/
def render (x : Number) : Text :=
  match x.magnitude with
  | .unbounded => utf8 (if x.negative then "-Inf" else "+Inf")
  | .finite m e =>
    let size := if m = 0 then utf8 "0" else
      let (ds, last) := digits x.precision m e
      positional ds last
    utf8 (if x.negative then "-" else "") ++ size

/-- Numbers are the same when they are written the same, apart from the sign of zero. -/
instance : BEq Number where
  beq x y :=
    match x.magnitude, y.magnitude with
    | .unbounded, .unbounded => x.negative == y.negative
    | .finite m e, .finite n f =>
      if m = 0 || n = 0 then m = n
      else x.negative == y.negative && digits x.precision m e == digits y.precision n f
    | _, _ => false

/-! ## Reading -/

/-- A power of five, rounded after every step of repeated squaring. -/
def powerOfFive (precision n : Nat) : Magnitude :=
  if n ≤ 27 then .finite (Nat.pow 5 n) 0
  else go 64 (.finite (Nat.pow 5 27) 0) (.finite 5 0) (n - 27)
where
  /-- Multiply `z` by `f` to the power of `n`. -/
  go : Nat → Magnitude → Magnitude → Nat → Magnitude
    | 0, z, _, _ => z
    | fuel + 1, z, f, n =>
      if n = 0 then z
      else
        go fuel (if n % 2 = 1 then z.mul precision f else z) (f.mul (precision + 64) f) (n / 2)

/-- The exponent at the end of a number, and whether it counts powers of two rather than ten. -/
def exponent? (t : Text) : Option (Bool × Int) :=
  match t with
  | [] => some (false, 0)
  | letter :: rest =>
    let value := (Numeral.toIntIn 10 rest).toOption
    if letter == 0x65 || letter == 0x45 then value.map fun n => (false, n)
    else if letter == 0x70 || letter == 0x50 then value.map fun n => (true, n)
    else none

/-- Read a decimal number, or the word for a number without bound. -/
def ofText? (t : Text) : Option Number := do
  let (negative, rest) := Numeral.splitSign t
  let result (m : Magnitude) : Number := ⟨writtenPrecision, negative, m⟩
  if rest == utf8 "Inf" || rest == utf8 "inf" then return result .unbounded
  let whole := rest.takeWhile Byte.isDigit
  let rest := rest.drop whole.length
  let (fraction, rest) :=
    match rest with
    | 0x2E :: more => (more.takeWhile Byte.isDigit, more.dropWhile Byte.isDigit)
    | rest => ([], rest)
  if whole.isEmpty && fraction.isEmpty then none
  let (binary, exponent) ← exponent? rest
  let mantissa := Decimal.value (whole ++ fraction)
  if mantissa = 0 then return result .zero
  let twos := exponent - fraction.length
  let fives := (if binary then 0 else exponent) - fraction.length
  let scale := Magnitude.scale mantissa twos
  if scale < Magnitude.leastScale || Magnitude.largestScale < scale then none
  let precision := writtenPrecision
  return result <|
    if fives < 0 then
      Magnitude.div precision (.finite mantissa twos) (powerOfFive (precision + 64) (-fives).toNat)
    else if 0 < fives then
      Magnitude.mul precision (.finite mantissa twos) (powerOfFive (precision + 64) fives.toNat)
    else .round precision mantissa twos

end Number

end ModifierToggle.Hcl
