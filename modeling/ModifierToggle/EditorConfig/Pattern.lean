import ModifierToggle.RegularExpression.Reader
import ModifierToggle.Text.Decimal

set_option autoImplicit false

/-! # Section patterns

The heading of a section describes file names. `*` stands for any run of characters without a slash,
`**` for any run of characters of a line, and `/**/` also for a single slash. `?` stands for one
character but a slash, `[abc]` and `[!abc]` for one character in or out of a set, `{a,b}` for one of
several patterns and `{1..9}` for a whole number in a range. Braces that do not pair up stand for
themselves.

What a heading means is settled by the regular expression it is turned into, sign by sign. A
backslash keeps only a comma, a closing brace or an ordinary character from being special, a set
takes the signs of the expression that other signs in it turn into, and what stands between a
bracket and a slash that comes before the closing bracket is taken as an expression itself. A
heading whose expression is not well-formed is malformed. -/

namespace ModifierToggle.EditorConfig

/-- Why a heading cannot be applied. -/
inductive PatternError where
  | malformed
  /-- The heading ends in an opening bracket, and turning it into an expression breaks down. -/
  | breakdown
  deriving Repr, DecidableEq

namespace Pattern

/-! ## Braces -/

/-- How often a run of `n` equal characters follows the start or a character that is no backslash.
    Occurrences do not overlap; `start` holds at the very start. -/
def countRuns (c : Char) (n : Nat) : Nat → Bool → List Char → Nat
  | 0, _, _ => 0
  | _ + 1, _, [] => 0
  | fuel + 1, start, b :: rest =>
    let run := List.replicate n c
    if start && run.isPrefixOf (b :: rest) then
      countRuns c n fuel false ((b :: rest).drop n) + 1
    else if b != '\\' && run.isPrefixOf rest then countRuns c n fuel false (rest.drop n) + 1
    else countRuns c n fuel false rest

/-- Whether the braces of a pattern seem to pair up: as many open as close, where two in a row count
    once more. -/
def bracesPair (cs : List Char) : Bool :=
  let count (c : Char) (n : Nat) : Nat := countRuns c n (cs.length + 1) true cs
  count '{' 1 + count '{' 2 == count '}' 1 + count '}' 2

/-- The characters up to a closing sign without a backslash before it, or up to and with one that
    `stops` them earlier; the rest behind that sign, or `none` when there is none; and whether they
    were stopped. `before` is the character before. -/
def upTo (close stops before : Char) :
    List Char → List Char × Option (List Char) × Bool
  | [] => ([], none, false)
  | c :: rest =>
    if c == close && before != '\\' then ([], some rest, false)
    else if c == stops && before != '\\' then ([c], some rest, true)
    else
      let (inner, behind, stopped) := upTo close stops c rest
      (c :: inner, behind, stopped)

/-- A whole number with an optional sign. -/
def wholeNumber? (cs : List Char) : Option (List Char) :=
  let digits := match cs with
    | '+' :: rest | '-' :: rest => rest
    | cs => cs
  if !digits.isEmpty && digits.all Char.isDigit then some cs else none

/-- The ends of a range of whole numbers, as they are written. -/
def rangeEnds? (cs : List Char) : Option (List Char × List Char) :=
  let first := cs.takeWhile (· != '.')
  match cs.drop first.length with
  | '.' :: '.' :: last => do return (← wholeNumber? first, ← wholeNumber? last)
  | _ => none

/-! ## The expression of a pattern -/

/-- The characters that an expression takes for special. -/
def specialChars : List Char := "\\.+*?()|[]\x7b\x7d^$".toList

/-- A character as an expression that stands for it. -/
def literal (c : Char) : List Char := if specialChars.contains c then ['\\', c] else [c]

/-- The expression for a range of whole numbers, written out. The last number is there in any
    case. -/
def numbers (first last : Int) : List Char :=
  let text (n : Int) : List Char := Text.toChars (Decimal.ofInt n)
  let before := (List.range (last - first).toNat).flatMap fun (i : Nat) => text (first + i) ++ ['|']
  "(?:".toList ++ before ++ text last ++ [')']

/-- What has been turned into an expression so far, the last character first, and where the reading
    of the pattern is. -/
structure Draft where
  written : List Char := []
  /-- The number of braces that are open. -/
  depth : Nat := 0
  escaped : Bool := false
  inSet : Bool := false
  /-- The character before. -/
  before : Char := '/'

namespace Draft

/-- Write some characters, after `before` was read. -/
def write (d : Draft) (before : Char) (cs : List Char) : Draft :=
  { d with written := cs.reverse ++ d.written, before }

end Draft

/-- Turn the rest of a pattern into an expression; `paired` tells whether its braces pair up. -/
def expressionFrom (paired : Bool) : Nat → Draft → List Char → Except PatternError (List Char)
  | 0, _, _ => .error .malformed
  | _ + 1, d, [] => .ok d.written.reverse
  | fuel + 1, d, c :: rest =>
    let next (d : Draft) (rest : List Char) := expressionFrom paired fuel d rest
    match c, rest with
    | '*', '*' :: rest => next (d.write '*' ".*".toList) rest
    | '*', rest => next (d.write '*' "[^/]*".toList) rest
    | '/', '*' :: '*' :: '/' :: rest => next (d.write '/' "(?:/|/.*/)".toList) rest
    | '/', rest => next (d.write '/' ['/']) rest
    | '?', rest => next (d.write '?' "[^/]".toList) rest
    | '[', rest =>
      if d.inSet then next (d.write '[' "\\[".toList) rest
      else
        match upTo ']' '/' '[' rest with
        | (inner, some behind, true) => next (d.write '/' ('\\' :: '[' :: inner)) behind
        | _ =>
          match rest with
          | [] => .error .breakdown
          | sign :: more =>
            if sign == '!' || sign == '^' then
              next { d.write sign "[^".toList with inSet := true } more
            else next { d.write '[' ['['] with inSet := true } rest
    | ']', rest =>
      if d.inSet && d.before == '\\' then next (d.write ']' "\\]".toList) rest
      else next { d.write ']' [']'] with inSet := false } rest
    | '{', rest =>
      match upTo '}' ',' '{' rest with
      | (inner, some behind, false) =>
        let turned : Except PatternError (List Char) :=
          match rangeEnds? inner with
          | some (first, last) =>
            match Decimal.toInt? (Text.ofChars first), Decimal.toInt? (Text.ofChars last) with
            | some first, some last => .ok (numbers first last)
            | _, _ => .error .malformed
          | none =>
            (expressionFrom (bracesPair inner) fuel {} inner).map fun e =>
              "\\\x7b".toList ++ e ++ "\\\x7d".toList
        match turned with
        | .error e => .error e
        | .ok e => next (d.write '}' e) behind
      | _ =>
        if paired then next { d.write '{' "(?:".toList with depth := d.depth + 1 } rest
        else next (d.write '{' "\\\x7b".toList) rest
    | '}', rest =>
      if d.depth == 0 then next (d.write '}' "\\\x7d".toList) rest
      else if d.escaped then next { d.write '}' "\x7d".toList with escaped := false } rest
      else next { d.write '}' [')'] with depth := d.depth - 1 } rest
    | ',', rest =>
      next (d.write ',' (if d.depth == 0 || d.escaped then [','] else ['|'])) rest
    | c, rest =>
      if c == '\\' && !d.escaped then next { d with escaped := true, before := c } rest
      else next { d.write c (literal c) with escaped := false } rest

/-- The expression that a pattern stands for: it has to match a path as a whole. -/
def expression? (cs : List Char) : Except PatternError RegularExpression :=
  match expressionFrom (bracesPair cs) (cs.length + 1) {} cs with
  | .error e => .error e
  | .ok written =>
    match RegularExpression.ofChars? ('^' :: written ++ ['$']) with
    | some e => .ok e
    | none => .error .malformed

/-! ## Matching -/

/-- The pattern as it applies to whole paths below the directory of its file: without a slash it
    applies to the last part of a path, wherever that is. -/
def anchored (pattern : Text) : Text :=
  if pattern.head? == some Byte.slash then pattern
  else if pattern.contains Byte.slash then Byte.slash :: pattern
  else utf8 "/**/" ++ pattern

/-- Whether a path, with a slash in front, matches the heading of a section. -/
def applies (pattern path : Text) : Except PatternError Bool :=
  (expression? (anchored pattern).toChars).map (·.occursIn path.toChars)

end Pattern

end ModifierToggle.EditorConfig
