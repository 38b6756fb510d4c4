import ModifierToggle.RegularExpression.Basic

set_option autoImplicit false

/-! # Reading regular expressions

The usual notation: `.` for any character of a line, `[...]` for a set of characters, `(...)` for
grouping, `|` between alternatives, and `*`, `+`, `?` and `{2,5}` for repetition, each perhaps with
a `?` behind it that asks for a short match. `^` and `$` stand for the ends of the text, a backslash
takes a sign literally or gives a letter a special meaning, and `(?i)` sets a flag.

Repetitions do not follow each other directly, and no counted repetition asks for more than 1000
copies, those nested in it included. Sets named by a property of characters are not known. -/

namespace ModifierToggle.RegularExpression

/-- The flags that an expression can set for what follows in its group. -/
structure Flags where
  /-- Letter case does not count. -/
  folded : Bool := false
  /-- `^` and `$` stand for the ends of a line. -/
  byLine : Bool := false
  /-- `.` stands for a newline too. -/
  dotTakesNewline : Bool := false

/-! ## Escapes -/

/-- The value of a hexadecimal digit. -/
def hexDigit? (c : Char) : Option Nat :=
  if c.isDigit then some (c.toNat - 0x30)
  else if 'a' ≤ c && c ≤ 'f' then some (c.toNat - 0x57)
  else if 'A' ≤ c && c ≤ 'F' then some (c.toNat - 0x37)
  else none

/-- Whether a character is an octal digit. -/
def isOctalDigit (c : Char) : Bool := '0' ≤ c && c ≤ '7'

/-- Read hexadecimal digits up to a closing brace; at least one, unless some were read before. -/
def bracedCode? (code : Option Nat) : List Char → Option (Nat × List Char)
  | [] => none
  | '}' :: rest => code.map (·, rest)
  | c :: rest =>
    match hexDigit? c with
    | none => none
    | some d =>
      let n := code.getD 0 * 16 + d
      if 0x10FFFF < n then none else bracedCode? (some n) rest

/-- Read what a backslash stands for together with what follows it: one character. -/
def escape? : List Char → Option (Nat × List Char)
  | [] => none
  | 'x' :: '{' :: rest => bracedCode? none rest
  | 'x' :: a :: b :: rest => do return ((← hexDigit? a) * 16 + (← hexDigit? b), rest)
  | 'a' :: rest => some (7, rest)
  | 'f' :: rest => some (0x0C, rest)
  | 'n' :: rest => some (0x0A, rest)
  | 'r' :: rest => some (0x0D, rest)
  | 't' :: rest => some (0x09, rest)
  | 'v' :: rest => some (0x0B, rest)
  | c :: rest =>
    if isOctalDigit c then
      if c != '0' && !rest.head?.any isOctalDigit then none
      else
        let more := (rest.take 2).takeWhile isOctalDigit
        some ((c :: more).foldl (fun n d => n * 8 + (d.toNat - 0x30)) 0, rest.drop more.length)
    else if c.toNat < 0x80 && !c.isAlphanum then some (c.toNat, rest)
    else none

/-- The set that a letter after a backslash stands for. -/
def namedRanges? (flags : Flags) (letter : Char) : Option CharRanges :=
  let digits := [(0x30, 0x39)]
  let blanks := [(0x09, 0x0A), (0x0C, 0x0D), (0x20, 0x20)]
  let words := [(0x30, 0x39), (0x41, 0x5A), (0x5F, 0x5F), (0x61, 0x7A)]
  let folded := flags.folded
  match letter with
  | 'd' => some { ranges := digits, folded }
  | 'D' => some { ranges := digits, folded, negated := true }
  | 's' => some { ranges := blanks, folded }
  | 'S' => some { ranges := blanks, folded, negated := true }
  | 'w' => some { ranges := words, folded }
  | 'W' => some { ranges := words, folded, negated := true }
  | _ => none

/-! ## Sets of characters -/

/-- The characters up to a colon with a closing bracket behind it, and those behind that. -/
def splitName? : List Char → Option (List Char × List Char)
  | ':' :: ']' :: rest => some ([], rest)
  | c :: rest => (splitName? rest).map fun (name, rest) => (c :: name, rest)
  | [] => none

/-- The names of sets that can be part of another one. -/
def setNames : List (String × List (Nat × Nat)) :=
  [("alnum", [(0x30, 0x39), (0x41, 0x5A), (0x61, 0x7A)]),
   ("alpha", [(0x41, 0x5A), (0x61, 0x7A)]),
   ("ascii", [(0x00, 0x7F)]),
   ("blank", [(0x09, 0x09), (0x20, 0x20)]),
   ("cntrl", [(0x00, 0x1F), (0x7F, 0x7F)]),
   ("digit", [(0x30, 0x39)]),
   ("graph", [(0x21, 0x7E)]),
   ("lower", [(0x61, 0x7A)]),
   ("print", [(0x20, 0x7E)]),
   ("punct", [(0x21, 0x2F), (0x3A, 0x40), (0x5B, 0x60), (0x7B, 0x7E)]),
   ("space", [(0x09, 0x0D), (0x20, 0x20)]),
   ("upper", [(0x41, 0x5A)]),
   ("word", [(0x30, 0x39), (0x41, 0x5A), (0x5F, 0x5F), (0x61, 0x7A)]),
   ("xdigit", [(0x30, 0x39), (0x41, 0x46), (0x61, 0x66)])]

/-- The set with a name; with `^` in front, the name is that of the characters out of it. -/
def namedSet? (flags : Flags) (name : List Char) : Option CharRanges :=
  let (negated, name) := match name with
    | '^' :: name => (true, name)
    | name => (false, name)
  (setNames.lookup (String.ofList name)).map fun ranges =>
    { ranges, negated, folded := flags.folded }

/-- Read a character of a set. -/
def setChar? : List Char → Option (Nat × List Char)
  | [] => none
  | '\\' :: rest => escape? rest
  | c :: rest => some (c.toNat, rest)

/-- Read the parts of a set up to its closing bracket; at the very start a bracket is one of its
    characters. -/
def setParts? (flags : Flags) :
    Nat → Bool → List CharRanges → List Char → Option (List CharRanges × List Char)
  | 0, _, _, _ => none
  | fuel + 1, first, parts, cs =>
    let range : Option (List CharRanges × List Char) :=
      match setChar? cs with
      | none => none
      | some (lo, rest) =>
        let part (hi : Nat) : CharRanges := { ranges := [(lo, hi)], folded := flags.folded }
        match rest with
        | '-' :: c :: more =>
          if c == ']' then setParts? flags fuel false (part lo :: parts) rest
          else
            match setChar? (c :: more) with
            | none => none
            | some (hi, rest) =>
              if hi < lo then none else setParts? flags fuel false (part hi :: parts) rest
        | _ => setParts? flags fuel false (part lo :: parts) rest
    match cs with
    | ']' :: rest => if first then range else some (parts, rest)
    | '[' :: ':' :: rest =>
      match splitName? rest with
      | none => range
      | some (name, rest) =>
        match namedSet? flags name with
        | some part => setParts? flags fuel false (part :: parts) rest
        | none => none
    | '\\' :: c :: rest =>
      if c == 'p' || c == 'P' then none
      else
        match namedRanges? flags c with
        | some part => setParts? flags fuel false (part :: parts) rest
        | none => range
    | _ => range

/-- Read a set, after its opening bracket. -/
def charSet? (flags : Flags) (cs : List Char) : Option (CharSet × List Char) :=
  let (negated, cs) := match cs with
    | '^' :: rest => (true, rest)
    | cs => (false, cs)
  (setParts? flags (cs.length + 1) true [] cs).map fun (parts, rest) => ({ parts, negated }, rest)

/-! ## Repetitions -/

/-- Read a number without a needless zero; too large a number is as good as 100000. -/
def count? (cs : List Char) : Option (Nat × List Char) :=
  let digits := cs.takeWhile Char.isDigit
  if digits.isEmpty || (digits.length > 1 && digits.head? == some '0') then none
  else
    some (digits.foldl (fun n d => min (n * 10 + (d.toNat - 0x30)) 100000) 0,
      cs.drop digits.length)

/-- Read how often something is repeated, after an opening brace. -/
def counts? (cs : List Char) : Option ((Nat × Option Nat) × List Char) := do
  let (least, rest) ← count? cs
  match rest with
  | '}' :: rest => return ((least, some least), rest)
  | ',' :: '}' :: rest => return ((least, none), rest)
  | ',' :: rest =>
    let (most, rest) ← count? rest
    match rest with
    | '}' :: rest => return ((least, some most), rest)
    | _ => none
  | _ => none

/-- The most copies that counted repetitions ask for. -/
def copyLimit : Nat := 1000

mutual

/-- Whether counted repetitions ask for no more than `n` copies. -/
def copiesFit (n : Nat) : RegularExpression → Bool
  | .times least most part =>
    -- signs such as `*` count nothing
    if most = some 0 then true
    else if [(0, none), (1, none), (0, some 1)].contains (least, most) then copiesFit n part
    else
      let copies := most.getD least
      copies ≤ n && copiesFit (if copies = 0 then n else n / copies) part
  | .all parts => allCopiesFit n parts
  | .any alternatives => allCopiesFit n alternatives
  | _ => true

/-- Whether counted repetitions in several expressions ask for no more than `n` copies. -/
def allCopiesFit (n : Nat) : List RegularExpression → Bool
  | [] => true
  | r :: rest => copiesFit n r && allCopiesFit n rest

end

/-! ## Groups -/

/-- A group that is being read. -/
structure Group where
  /-- The alternatives that are complete, the last one first. -/
  done : List RegularExpression := []
  /-- The parts of the present alternative, the last one first. -/
  parts : List RegularExpression := []
  /-- The flags outside of the group. -/
  outside : Flags := {}

namespace Group

/-- The expression that a group stands for. -/
def toExpression (g : Group) : RegularExpression :=
  match g.done with
  | [] => .all g.parts.reverse
  | done => .any (.all g.parts.reverse :: done).reverse

end Group

/-- What has been read of an expression. -/
structure Draft where
  flags : Flags := {}
  group : Group := {}
  /-- The groups around the present one. -/
  outer : List Group := []
  /-- Whether a repetition has just been read. -/
  afterTimes : Bool := false
  /-- The names of groups. -/
  names : List (List Char) := []

namespace Draft

/-- Add a part. -/
def add (d : Draft) (r : RegularExpression) : Draft :=
  { d with group := { d.group with parts := r :: d.group.parts } }

/-- Add a character by its code point. -/
def addCode (d : Draft) (n : Nat) : Draft :=
  d.add (.one { parts := [{ ranges := [(n, n)], folded := d.flags.folded }] })

/-- Repeat the last part; `none` when there is none, or a repetition comes right before. A question
    mark asks for a short match, which makes no difference here. -/
def times (d : Draft) (least : Nat) (most : Option Nat) (rest : List Char) :
    Option (Draft × List Char) :=
  let rest := match rest with
    | '?' :: rest => rest
    | rest => rest
  match d.group.parts with
  | part :: parts =>
    let group := { d.group with parts := RegularExpression.times least most part :: parts }
    if d.afterTimes then none else some ({ d with group, afterTimes := true }, rest)
  | [] => none

/-- Start a group. -/
def openGroup (d : Draft) : Draft :=
  { d with group := { outside := d.flags }, outer := d.group :: d.outer }

/-- End a group; `none` when none is open. -/
def closeGroup (d : Draft) : Option Draft :=
  match d.outer with
  | [] => none
  | group :: outer =>
    some ({ d with group, outer, flags := d.group.outside }.add d.group.toExpression)

/-- Whether characters can name a group. -/
def isGroupName (name : List Char) : Bool := !name.isEmpty && name.all TextPlace.isWordChar

/-- Read flags, after `(?`, up to the end of the group that sets them or to the start of one that
    they hold in. -/
def readFlags (d : Draft) : Flags → Bool → Bool → List Char → Option (Draft × List Char)
  | _, _, _, [] => none
  | flags, clearing, seen, c :: rest =>
    match c with
    | 'i' => readFlags d { flags with folded := !clearing } clearing true rest
    | 'm' => readFlags d { flags with byLine := !clearing } clearing true rest
    | 's' => readFlags d { flags with dotTakesNewline := !clearing } clearing true rest
    | 'U' => readFlags d flags clearing true rest
    | '-' => if clearing then none else readFlags d flags true false rest
    | ':' => if clearing && !seen then none else some ({ d.openGroup with flags }, rest)
    | ')' => if clearing && !seen then none else some ({ d with flags }, rest)
    | _ => none

/-- Read what follows an opening parenthesis. No two groups have the same name. -/
def readGroup (d : Draft) (cs : List Char) : Option (Draft × List Char) :=
  let named (cs : List Char) : Option (Draft × List Char) :=
    let name := cs.takeWhile (· != '>')
    if name.length < cs.length && isGroupName name && !d.names.contains name then
      some ({ d.openGroup with names := name :: d.names }, cs.drop (name.length + 1))
    else none
  match cs with
  | '?' :: 'P' :: '<' :: rest => named rest
  | '?' :: '<' :: rest => named rest
  | '?' :: rest => readFlags d d.flags false false rest
  | rest => some (d.openGroup, rest)

/-- Add the characters of a text taken literally, up to a backslash and an `E`. -/
def readLiteral (d : Draft) : List Char → Draft × List Char
  | [] => (d, [])
  | '\\' :: 'E' :: rest => (d, rest)
  | c :: rest => readLiteral (d.addCode c.toNat) rest

/-- Read what follows a backslash. -/
def readEscape (d : Draft) (cs : List Char) : Option (Draft × List Char) :=
  match cs with
  | 'A' :: rest => some (d.add .textStart, rest)
  | 'z' :: rest => some (d.add .textEnd, rest)
  | 'b' :: rest => some (d.add (.wordEdge true), rest)
  | 'B' :: rest => some (d.add (.wordEdge false), rest)
  | 'Q' :: rest => some (d.readLiteral rest)
  | c :: rest =>
    match namedRanges? d.flags c with
    | some part => some (d.add (.one { parts := [part] }), rest)
    | none => (escape? cs).map fun (n, rest) => (d.addCode n, rest)
  | [] => none

/-- Read one sign of an expression that is no repetition. -/
def readSign (d : Draft) (c : Char) (rest : List Char) : Option (Draft × List Char) :=
  match c with
  | '(' => d.readGroup rest
  | ')' => d.closeGroup.map (·, rest)
  | '|' =>
    let done := RegularExpression.all d.group.parts.reverse :: d.group.done
    some ({ d with group := { d.group with done, parts := [] } }, rest)
  | '^' => some (d.add (if d.flags.byLine then .lineStart else .textStart), rest)
  | '$' => some (d.add (if d.flags.byLine then .lineEnd else .textEnd), rest)
  | '.' =>
    let newline : List (Nat × Nat) := if d.flags.dotTakesNewline then [] else [(0x0A, 0x0A)]
    some (d.add (.one { parts := [{ ranges := newline, negated := true }] }), rest)
  | '[' => (charSet? d.flags rest).map fun (set, rest) => (d.add (.one set), rest)
  | '\\' => d.readEscape rest
  | c => some (d.addCode c.toNat, rest)

/-- Read one sign of an expression. -/
def step (d : Draft) (c : Char) (rest : List Char) : Option (Draft × List Char) :=
  let other : Option (Draft × List Char) := { d with afterTimes := false }.readSign c rest
  match c with
  | '*' => d.times 0 none rest
  | '+' => d.times 1 none rest
  | '?' => d.times 0 (some 1) rest
  | '{' =>
    match counts? rest with
    | none => other
    | some ((least, most), rest) =>
      if copyLimit < least || most.any (fun m => copyLimit < m || m < least) then none
      else
        (d.times least most rest).filter fun (d, _) => d.group.parts.head?.all (copiesFit copyLimit)
  | _ => other

/-- Read the rest of an expression. -/
def read : Nat → Draft → List Char → Option Draft
  | _, d, [] => some d
  | 0, _, _ => none
  | fuel + 1, d, c :: rest =>
    match d.step c rest with
    | none => none
    | some (d, rest) => read fuel d rest

end Draft

/-- The regular expression that a text stands for, if it is well-formed. -/
def ofChars? (cs : List Char) : Option RegularExpression :=
  match Draft.read cs.length {} cs with
  | some d => if d.outer.isEmpty then some d.group.toExpression else none
  | none => none

end ModifierToggle.RegularExpression
