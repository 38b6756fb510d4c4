import ModifierToggle.Text.LetterCase
import ModifierToggle.Text.Numeral
import ModifierToggle.Text.Quoted

set_option autoImplicit false

/-! # Flags

The arguments of a command are flags, in long form (`--file a`, `--file=a`) or by letter (`-f a`,
`-fa`, `-f=a`), and plain words. Letters can share a dash, as long as only the last of them takes a
value. Flags and words may be mixed; after `--` there are only words. -/

namespace ModifierToggle

/-- What a flag takes. A switch takes a truth value, but need not be given one. -/
inductive FlagKind where
  | text
  | number
  | switch
  deriving Repr, DecidableEq

/-- A flag, with its letter if it has one. -/
structure Flag where
  name : Text
  letter : Option UInt8 := none
  kind : FlagKind := .text
  deriving Repr, DecidableEq

namespace Flag

/-- A flag as messages name it. -/
def title (f : Flag) : Text :=
  match f.letter with
  | some c => Byte.minus :: c :: utf8 ", --" ++ f.name
  | none => utf8 "--" ++ f.name

/-- The value given to a flag. -/
inductive Value where
  | text (t : Text)
  | number (n : Int)
  | switch (b : Bool)
  deriving Repr, DecidableEq

/-- Why a text is no value of a flag. -/
inductive ValueError where
  | number (cause : NumeralError)
  | switch
  deriving Repr, DecidableEq

/-- The wording of the error, for a text. -/
def ValueError.message (t : Text) : ValueError → Text
  | .number .malformed =>
    utf8 "strconv.ParseInt: parsing " ++ t.quoted ++ utf8 ": invalid syntax"
  | .number .tooLarge =>
    utf8 "strconv.ParseInt: parsing " ++ t.quoted ++ utf8 ": value out of range"
  | .switch => utf8 "strconv.ParseBool: parsing " ++ t.quoted ++ utf8 ": invalid syntax"

/-- The spellings of the two truth values. -/
def truthValue? (t : Text) : Option Bool :=
  if [utf8 "1", utf8 "t", utf8 "T", utf8 "TRUE", utf8 "true", utf8 "True"].contains t then
    some true
  else if [utf8 "0", utf8 "f", utf8 "F", utf8 "FALSE", utf8 "false", utf8 "False"].contains t then
    some false
  else none

/-- Read the value of a flag. -/
def read (f : Flag) (t : Text) : Except ValueError Value :=
  match f.kind with
  | .text => .ok (.text t)
  | .number => ((Numeral.toInt t).map .number).mapError .number
  | .switch =>
    match truthValue? t with
    | some b => .ok (.switch b)
    | none => .error .switch

end Flag

/-- What is wrong with the arguments of a command. -/
inductive FlagError where
  | unknownName (name : Text)
  | unknownLetter (letter : UInt8) (letters : Text)
  | nameNeedsValue (argument : Text)
  | letterNeedsValue (letter : UInt8) (letters : Text)
  | badForm (argument : Text)
  | badValue (flag : Flag) (value : Text) (cause : Flag.ValueError)
  deriving Repr, DecidableEq

/-- A byte between single quotes, as the character with its number. -/
def Text.quotedLetter (b : UInt8) : Text :=
  let c := Char.ofNat b.toNat
  utf8 "'"
    ++ (if c == '\'' then utf8 "\\'" else if c == '"' then utf8 "\"" else Quoted.encodeChar c)
    ++ utf8 "'"

/-- The wording of the error. -/
def FlagError.message : FlagError → Text
  | .unknownName name => utf8 "unknown flag: --" ++ name
  | .unknownLetter c letters =>
    utf8 "unknown shorthand flag: " ++ Text.quotedLetter c ++ utf8 " in -" ++ letters
  | .nameNeedsValue argument => utf8 "flag needs an argument: " ++ argument
  | .letterNeedsValue c letters =>
    utf8 "flag needs an argument: " ++ Text.quotedLetter c ++ utf8 " in -" ++ letters
  | .badForm argument => utf8 "bad flag syntax: " ++ argument
  | .badValue flag value cause =>
    utf8 "invalid argument " ++ value.quoted ++ utf8 " for " ++ (flag.title).quoted
      ++ utf8 " flag: " ++ cause.message value

namespace Flag

/-- The values given to flags, in order, and the words among them. -/
structure Given where
  values : List (Text × Value) := []
  words : List Text := []
  deriving Repr, DecidableEq

/-- A flag that takes the next argument as its value, and what is wrong when there is none. -/
structure Pending where
  flag : Flag
  missing : FlagError

namespace Given

/-- Give a flag a value. -/
def set (g : Given) (f : Flag) (t : Text) : Except FlagError Given :=
  match f.read t with
  | .ok v => .ok { g with values := g.values ++ [(f.name, v)] }
  | .error cause => .error (.badValue f t cause)

/-- The last value given to a flag. -/
def value? (g : Given) (name : Text) : Option Value :=
  (g.values.reverse.find? (·.1 == name)).map (·.2)

/-- The text given to a flag, or an empty one. -/
def text (g : Given) (name : String) : Text :=
  match g.value? (utf8 name) with
  | some (.text t) => t
  | _ => []

/-- The number given to a flag, or zero. -/
def number (g : Given) (name : String) : Int :=
  match g.value? (utf8 name) with
  | some (.number n) => n
  | _ => 0

/-- Whether a switch is on. -/
def switch (g : Given) (name : String) : Bool := g.value? (utf8 name) == some (.switch true)

/-- Whether a flag was given at all. -/
def has (g : Given) (name : Text) : Bool := g.values.any (·.1 == name)

end Given

/-- The word that turns a switch on. -/
def on : Text := utf8 "true"

/-- Read a flag in long form. -/
def readLong (flags : List Flag) (g : Given) (argument : Text) :
    Except FlagError (Given × Option Pending) :=
  let body : Text := argument.drop 2
  if body.isEmpty || body.head? == some Byte.minus || body.head? == some 0x3D then
    .error (.badForm argument)
  else
    let (name, value) : Text × Option Text :=
      match Text.cut? 0x3D body with
      | some (name, value) => (name, some value)
      | none => (body, none)
    match flags.find? (·.name == name) with
    | none => .error (.unknownName name)
    | some f =>
      match value with
      | some t => (g.set f t).map (·, none)
      | none =>
        if f.kind = .switch then (g.set f on).map (·, none)
        else .ok (g, some ⟨f, .nameNeedsValue argument⟩)

/-- The letters with which flags of a test run start; they are passed over. -/
def testLetters : Text := utf8 "test."

/-- Read flags by their letters. -/
def readLetters (flags : List Flag) (g : Given) : Text → Except FlagError (Given × Option Pending)
  | [] => .ok (g, none)
  | c :: rest =>
    if testLetters.isPrefixOf (c :: rest) then .ok (g, none)
    else match flags.find? (·.letter == some c) with
    | none => .error (.unknownLetter c (c :: rest))
    | some f =>
      match rest with
      | 0x3D :: v :: value => (g.set f (v :: value)).map (·, none)
      | _ =>
        if f.kind = .switch then
          match g.set f on with
          | .error e => .error e
          | .ok g => readLetters flags g rest
        else if rest.isEmpty then .ok (g, some ⟨f, .letterNeedsValue c [c]⟩)
        else (g.set f rest).map (·, none)

/-- Whether an argument is a word: it has no dash in front, or is a dash alone. -/
def isWord (argument : Text) : Bool :=
  argument.head? != some Byte.minus || argument.length == 1

/-- Read arguments one after the other; the first fault counts. -/
def readAll (flags : List Flag) (g : Given) : List Text → Except FlagError Given
  | [] => .ok g
  | argument :: rest =>
    if isWord argument then readAll flags { g with words := g.words ++ [argument] } rest
    else if argument == utf8 "--" then .ok { g with words := g.words ++ rest }
    else
      let found :=
        if (utf8 "--").isPrefixOf argument then readLong flags g argument
        else readLetters flags g (argument.drop 1)
      match found with
      | .error e => .error e
      | .ok (g, none) => readAll flags g rest
      | .ok (g, some pending) =>
        match rest with
        | [] => .error pending.missing
        | value :: rest =>
          match g.set pending.flag value with
          | .error e => .error e
          | .ok g => readAll flags g rest

end Flag

end ModifierToggle
