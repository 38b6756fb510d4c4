import ModifierToggle.Text.Numeral
import ModifierToggle.Text.Scientific
import ModifierToggle.Yaml.Node

set_option autoImplicit false

/-! # What a scalar stands for

A scalar without a tag that is not quoted stands for a null, a truth value, a number or a time if it
is written like one, and for its text otherwise. A tag asks for one of these, and a scalar that is
not written like it is refused. -/

namespace ModifierToggle.Yaml

/-- The value of a scalar. -/
inductive Value where
  | null
  | bool (b : Bool)
  | int (n : Int)
  /-- A number with a fraction, and its whole part where that is a number at all. -/
  | float (whole : Option Int)
  | time
  | text (t : Text)
  deriving Repr, DecidableEq

namespace Value

/-! ## Times -/

/-- Take the digits off the front, at most `most` of them. -/
def takeDigits (most : Nat) (t : Text) : Text × Text :=
  let ds := (t.take most).takeWhile Byte.isDigit
  (ds, t.drop ds.length)

/-- Take a number off the front: one or two digits, in a range. -/
def takeField? (lo hi : Nat) (t : Text) : Option (Nat × Text) :=
  let (ds, rest) := takeDigits 2 t
  if ds.isEmpty then none
  else
    let n := Decimal.value ds
    if lo ≤ n && n ≤ hi then some (n, rest) else none

/-- Take a byte off the front. -/
def takeByte? (b : UInt8) (t : Text) : Option Text :=
  match t with
  | c :: rest => if c == b then some rest else none
  | [] => none

/-- The number of days of a month. -/
def daysIn (year month : Nat) : Nat :=
  if month == 2 then
    if year % 4 == 0 && (year % 100 != 0 || year % 400 == 0) then 29 else 28
  else if month == 4 || month == 6 || month == 9 || month == 11 then 30
  else 31

/-- Take a clock time off the front: hours, minutes and seconds, perhaps with a fraction. -/
def takeClock? (t : Text) : Option Text := do
  let (_, t) ← takeField? 0 23 t
  let t ← takeByte? Byte.colon t
  let (_, t) ← takeField? 0 59 t
  let t ← takeByte? Byte.colon t
  let (_, t) ← takeField? 0 59 t
  match t with
  | sep :: d :: rest =>
    if (sep == Byte.dot || sep == 0x2C) && Byte.isDigit d then
      return rest.dropWhile Byte.isDigit
    else return t
  | _ => return t

/-- Whether a text is a time zone: `Z`, or an offset in hours and minutes. -/
def isZone (t : Text) : Bool :=
  match t with
  | [0x5A] => true
  | [sign, a, b, colon, c, d] =>
    (sign == 0x2B || sign == Byte.minus) && colon == Byte.colon && [a, b, c, d].all Byte.isDigit
      && Decimal.value [a, b] ≤ 24 && Decimal.value [c, d] ≤ 60
  | _ => false

/-- Whether a text is a date, perhaps with a time of day. The time follows a letter and has a zone,
    or it follows spaces and has none. -/
def isTime (t : Text) : Bool :=
  let date? : Option Text := do
    let (year, t) := takeDigits 4 t
    if year.length < 4 then none
    let t ← takeByte? Byte.minus t
    let (month, t) ← takeField? 1 12 t
    let t ← takeByte? Byte.minus t
    let (day, t) ← takeField? 1 31 t
    if daysIn (Decimal.value year) month < day then none
    return t
  match date? with
  | none => false
  | some [] => true
  | some (sep :: clock) =>
    if sep == 0x54 || sep == 0x74 then (takeClock? clock).any isZone
    else sep == Byte.space && (takeClock? (clock.dropWhile (· == Byte.space))).any List.isEmpty

/-! ## Numbers -/

/-- The least integer that fits a signed 64 bit word. -/
def leastWord : Int := -9223372036854775808

/-- The whole part of a decimal fraction, as an integer where it fits. -/
def floatOf (s : Scientific) : Option Value :=
  s.wholeMagnitude?.map fun n =>
    if s.negative then
      -- what lies below every integer that fits counts as the least of them
      .float (some (max (-(n : Int)) leastWord))
    else if n < Numeral.signedValues then .float (some n)
    else if n = Numeral.signedValues then .float (some leastWord)
    else .float none

/-- An integer of a signed 64 bit word as a number with a fraction. -/
def floatOfInt? (n : Int) : Option Value :=
  if Decimal.inWord n then floatOf { negative := n < 0, mantissa := n.natAbs, exponent := 0 }
  else none

/-- Whether every underscore of a text stands between two digits. -/
def gapsBetweenDigits : Bool → Text → Bool
  | _, [] => true
  | afterDigit, b :: rest =>
    if b == Byte.underscore then
      afterDigit && rest.head?.any Byte.isDigit && gapsBetweenDigits false rest
    else gapsBetweenDigits (Byte.isDigit b) rest

/-- The number that a text stands for, whose first character is a point. -/
def pointed? (t : Text) : Option Value :=
  if gapsBetweenDigits false t then
    (Scientific.parse? (t.filter (· != Byte.underscore))).bind floatOf
  else none

/-- The number a text stands for, if it is written like one. -/
def number? (t : Text) : Option Value :=
  let digits := t.filter (· != Byte.underscore)
  let (negative, rest) := Numeral.splitSign digits
  match Numeral.readMagnitude rest with
  | .ok n =>
    if negative then
      if n ≤ Numeral.signedValues then some (.int (-(n : Int))) else fraction? digits
    else if n < Numeral.signedValues || rest = digits then some (.int n)
    else fraction? digits
  | .error _ => fraction? digits
where
  /-- A decimal fraction, or an integer with its sign after the announcement of the base. -/
  fraction? (digits : Text) : Option Value :=
    match (Scientific.parse? digits).bind floatOf with
    | some v => some v
    | none =>
      if (utf8 "0b").isPrefixOf digits then (Numeral.toIntIn 2 (digits.drop 2)).toOption.map .int
      else if (utf8 "0o").isPrefixOf digits then
        (Numeral.toIntIn 8 (digits.drop 2)).toOption.map .int
      else none

/-! ## Resolution -/

/-- The words with a value of their own. -/
def words : List (String × Value) :=
  [("true", .bool true), ("True", .bool true), ("TRUE", .bool true),
   ("false", .bool false), ("False", .bool false), ("FALSE", .bool false),
   ("", .null), ("~", .null), ("null", .null), ("Null", .null), ("NULL", .null),
   (".nan", .float none), (".NaN", .float none), (".NAN", .float none),
   (".inf", .float none), (".Inf", .float none), (".INF", .float none),
   ("+.inf", .float none), ("+.Inf", .float none), ("+.INF", .float none),
   ("-.inf", .float (some leastWord)), ("-.Inf", .float (some leastWord)),
   ("-.INF", .float (some leastWord))]

/-- The value of a text that is not quoted. Times are looked for when `times` holds. -/
def ofPlain (times : Bool) (t : Text) : Value :=
  match words.find? (utf8 ·.1 == t) with
  | some (_, v) => v
  | none =>
    match t with
    | [] => .null
    | b :: _ =>
      if b == Byte.dot then (pointed? t).getD (.text t)
      else if Byte.isDigit b || b == Byte.minus || b == 0x2B then
        if times && isTime t then .time else (number? t).getD (.text t)
      else .text t

/-- The short form of a tag. -/
def shortTag (tag : Text) : Text :=
  let long := utf8 "tag:yaml.org,2002:"
  if long.isPrefixOf tag then utf8 "!!" ++ tag.drop long.length else tag

/-- What a tag that has a meaning of its own makes of a value: the value, if it is of its type, and
    a number with a fraction also of an integer. -/
def accept? (tag : Text) : Option (Value → Option Value) :=
  let only (p : Value → Bool) : Option (Value → Option Value) := some fun v => some v |>.filter p
  if tag == utf8 "!!bool" then only fun v => v matches .bool _
  else if tag == utf8 "!!int" then only fun v => v matches .int _
  else if tag == utf8 "!!float" then
    some fun
      | .int n => floatOfInt? n
      | v => some v |>.filter fun v => v matches .float _
  else if tag == utf8 "!!null" then only fun v => v matches .null
  else if tag == utf8 "!!timestamp" then only fun v => v matches .time
  else none

end Value

/-! ## Base 64 -/

namespace Base64

/-- The value of a base 64 digit. -/
def digit? (b : UInt8) : Option Nat :=
  if 0x41 ≤ b && b ≤ 0x5A then some (b.toNat - 0x41)
  else if 0x61 ≤ b && b ≤ 0x7A then some (b.toNat - 0x61 + 26)
  else if Byte.isDigit b then some (b.toNat - 0x30 + 52)
  else if b == 0x2B then some 62
  else if b == 0x2F then some 63
  else none

/-- Decode groups of four digits, the last of which may be padded. -/
def decodeGroups : Text → Option Text
  | [] => some []
  | [a, b, 0x3D, 0x3D] => do
    let n := (← digit? a) * 64 + (← digit? b)
    return [UInt8.ofNat (n / 16)]
  | [a, b, c, 0x3D] => do
    let n := ((← digit? a) * 64 + (← digit? b)) * 64 + (← digit? c)
    return [UInt8.ofNat (n / 1024), UInt8.ofNat (n / 4 % 256)]
  | a :: b :: c :: d :: rest => do
    let n := (((← digit? a) * 64 + (← digit? b)) * 64 + (← digit? c)) * 64 + (← digit? d)
    let more ← decodeGroups rest
    return UInt8.ofNat (n / 65536) :: UInt8.ofNat (n / 256 % 256) :: UInt8.ofNat (n % 256) :: more
  | _ => none

/-- Decode a text; line breaks in it do not count. -/
def decode? (t : Text) : Option Text :=
  decodeGroups (t.filter fun b => !(b == Byte.newline || b == Byte.carriageReturn))

end Base64

namespace Node

/-- The value of a scalar; `none` when it is not written like its tag asks for. The second part is
    the text that a scalar gives where a text is wanted. -/
def scalarValue? (tag : Text) (plain : Bool) (t : Text) : Option (Value × Text) :=
  let tag := if tag == utf8 "!" then [] else Value.shortTag tag
  if tag.isEmpty then
    if plain && t != utf8 "<<" then some (Value.ofPlain true t, t) else some (.text t, t)
  else if tag == utf8 "!!str" then some (.text t, t)
  else if tag == utf8 "!!binary" then (Base64.decode? t).map fun d => (.text d, d)
  else match Value.accept? tag with
    | none => some (.text t, t)
    | some accept => (accept (Value.ofPlain (tag == utf8 "!!timestamp") t)).map (·, t)

end Node

end ModifierToggle.Yaml
