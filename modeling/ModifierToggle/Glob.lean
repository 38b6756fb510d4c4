import ModifierToggle.Text.LetterCase

set_option autoImplicit false

/-! # File patterns

A pattern describes paths with `/` between their parts. `*` stands for any run of characters inside
a part and `?` for one of them, `[...]` for one character of a class, `{a,b}` for one of several
patterns, and a backslash takes the character after it literally. `**` as a whole part stands for
any number of parts, none included; anywhere else it is as good as `*`.

A pattern is malformed when a class is empty or not closed, when braces do not pair up, or when it
ends in a backslash. -/

namespace ModifierToggle.Glob

/-! ## Well-formed patterns -/

/-- What is being read: ordinary characters, the character after a backslash, or a class, where
    nothing, only the negation, or some character of it has been read. -/
inductive Reading where
  | plain
  | escaped
  | classOpened
  | classNegated
  | inClass
  | escapedInClass
  deriving Repr, DecidableEq

/-- Whether the rest of a pattern completes it to a well-formed one, `depth` braces being open. -/
def completes (depth : Nat) : Reading → List Char → Bool
  | .plain, [] => depth == 0
  | _, [] => false
  | .plain, c :: rest =>
    if c == '\\' then completes depth .escaped rest
    else if c == '[' then completes depth .classOpened rest
    else if c == '{' then completes (depth + 1) .plain rest
    else if c == '}' then 0 < depth && completes (depth - 1) .plain rest
    else completes depth .plain rest
  | .escaped, _ :: rest => completes depth .plain rest
  | .classOpened, c :: rest =>
    if c == '^' || c == '!' then completes depth .classNegated rest
    else if c == ']' then false
    else completes depth (if c == '\\' then .escapedInClass else .inClass) rest
  | .classNegated, c :: rest =>
    if c == ']' then false
    else completes depth (if c == '\\' then .escapedInClass else .inClass) rest
  | .inClass, c :: rest =>
    if c == ']' then completes depth .plain rest
    else completes depth (if c == '\\' then .escapedInClass else .inClass) rest
  | .escapedInClass, _ :: rest => completes depth .inClass rest

/-- Whether a pattern is well-formed. -/
def isWellFormed (pattern : List Char) : Bool := completes 0 .plain pattern

/-! ## Alternatives -/

/-- The text up to the brace that closes the one before it, and the text after that; `depth` further
    braces are open. -/
def closeBrace? (depth : Nat) : List Char → Option (List Char × List Char)
  | [] => none
  | '\\' :: [] => none
  | '\\' :: c :: rest => (closeBrace? depth rest).map fun (a, b) => ('\\' :: c :: a, b)
  | c :: rest =>
    if c == '}' then
      match depth with
      | 0 => some ([], rest)
      | depth + 1 => (closeBrace? depth rest).map fun (a, b) => (c :: a, b)
    else
      (closeBrace? (if c == '{' then depth + 1 else depth) rest).map fun (a, b) => (c :: a, b)

/-- Put a character in front of the first of several texts. -/
def consFirst (c : Char) : List (List Char) → List (List Char)
  | [] => [[c]]
  | a :: rest => (c :: a) :: rest

/-- The alternatives between braces: the parts between commas at their level. -/
def alternatives (depth : Nat) : List Char → List (List Char)
  | [] => [[]]
  | ['\\'] => [['\\']]
  | '\\' :: c :: rest => consFirst '\\' (consFirst c (alternatives depth rest))
  | c :: rest =>
    if c == ',' && depth == 0 then [] :: alternatives depth rest
    else if c == '{' then consFirst c (alternatives (depth + 1) rest)
    else if c == '}' then consFirst c (alternatives (depth - 1) rest)
    else consFirst c (alternatives depth rest)

/-- The first definite answer of several searches: a match, or a malformed pattern. -/
def firstAnswer : List (Option Bool) → Option Bool
  | [] => some false
  | [r] => r
  | some false :: rest => firstAnswer rest
  | r :: _ => r

/-! ## Matching -/

/-- Whether a pattern matches the empty rest of a path: `none` when it is malformed. A closing `**`
    matches nothing, also after a separator, since a directory is part of what is below it. -/
def matchesNothing : Nat → List Char → Option Bool
  | 0, _ => some false
  | fuel + 1, pattern =>
    if [[], ['*'], ['*', '*'], ['/', '*', '*'], ['*', '*', '/'], ['/', '*', '*', '/']].contains
        pattern then some true
    else match pattern with
      | '{' :: rest =>
        match closeBrace? 0 rest with
        | none => none
        | some (inside, after) =>
          firstAnswer ((alternatives 0 inside).map fun a => matchesNothing fuel (a ++ after))
      | _ => if isWellFormed pattern then some false else none

/-- What reading a class against a character comes to: the class is malformed, it decides against
    the character with `rest` left of it, or it takes the character with `rest` left of it. -/
structure ClassAnswer where
  found : Bool
  rest : List Char

/-- Whether a range can start with a character. The last one of all starts none, so a dash behind it
    is an item of its own. -/
def startsRange (c : Char) : Bool := c.toNat < 0x10FFFF

/-- Look for a character in the items of a class. `last` is the item before, when it can start a
    range. -/
def searchClass (ch : Char) : Nat → Option Char → List Char → ClassAnswer
  | 0, _, rest => ⟨false, rest⟩
  | _ + 1, _, [] => ⟨false, []⟩
  | _ + 1, _, ']' :: rest => ⟨false, ']' :: rest⟩
  | fuel + 1, last, c :: rest =>
    let takeOne (cs : List Char) : Char × List Char :=
      match cs with
      | [] => (replacementChar, [])
      | d :: cs => (d, cs)
    match last, c, rest with
    | some lo, '-', d :: more =>
      if d == ']' then item c rest fuel
      else
        let (hi, after) := takeOne (if d == '\\' then more else d :: more)
        if lo ≤ ch && ch ≤ hi then ⟨true, after⟩ else searchClass ch fuel none after
    | _, _, _ => item c rest fuel
where
  /-- Compare with a single item. -/
  item (c : Char) (rest : List Char) (fuel : Nat) : ClassAnswer :=
    let (c, rest) :=
      if c == '\\' then
        match rest with
        | [] => (replacementChar, [])
        | d :: rest => (d, rest)
      else (c, rest)
    if c == ch then ⟨true, rest⟩
    else searchClass ch fuel (if startsRange c then some c else none) rest

/-- The text behind the bracket that closes a class. -/
def afterClass? : List Char → Option (List Char)
  | [] => none
  | '\\' :: [] => none
  | '\\' :: _ :: rest => afterClass? rest
  | ']' :: rest => some rest
  | _ :: rest => afterClass? rest

/-- The state of a search: what is left of pattern and path, whether a part of the path starts here,
    the character of the pattern before, and where to go on when a match fails: behind the last `*`,
    and behind the last `**`, each with the rest of the path it was tried at. -/
structure Search where
  pattern : List Char
  path : List Char
  atPart : Bool := true
  before : Option Char := none
  star : Option (List Char × List Char) := none
  parts : Option (List Char × List Char) := none

namespace Search

/-- Let the last `**` stand for one more part. -/
def retryParts (s : Search) : Option Search :=
  match s.parts with
  | none => none
  | some (p, n) =>
    match n.dropWhile (· != '/') with
    | [] => none
    | _ :: n =>
      some { s with pattern := p, path := n, atPart := true, before := none, parts := some (p, n) }

/-- Let the last `*` stand for one more character, or else the last `**` for one more part. -/
def retry (s : Search) : Option Search :=
  match s.star with
  | some (p, c :: n) =>
    if c == '/' then s.retryParts
    else
      some { s with pattern := p, path := n, atPart := false, before := none, star := some (p, n) }
  | _ => s.retryParts

/-- The state of a search with another pattern in place of what is left of it, also where the search
    would go on after a failure. -/
def withPattern (s : Search) (pattern : List Char) : Search :=
  let rebase (p : List Char × List Char) : List Char × List Char :=
    (p.1.take (p.1.length - s.pattern.length) ++ pattern, p.2)
  { s with pattern, atPart := true, star := s.star.map rebase, parts := s.parts.map rebase }

/-- What the next item of the pattern does with a path that has not ended: go on with another state,
    or give up at `failed`, from which on the pattern has yet to be checked. -/
inductive Move where
  | go (s : Search)
  | fail (failed : List Char)
  | malformed
  | found
  | branch (alternatives : List (List Char))

/-- One step of a search on a path that starts with `ch`. -/
def move (s : Search) (ch : Char) (path : List Char) : Move :=
  match s.pattern with
  | [] => .fail []
  | '*' :: '*' :: rest =>
    match s.atPart, rest with
    | true, [] => .found
    | true, '/' :: rest =>
      .go { s with pattern := rest, before := some '/', star := none, parts := some (rest, s.path) }
    | _, _ => .go { s with pattern := rest, atPart := false, before := none
                           star := some (rest, s.path) }
  | '*' :: rest =>
    .go { s with pattern := rest, atPart := false, before := none, star := some (rest, s.path) }
  | '?' :: rest =>
    if ch == '/' then .fail ('?' :: rest)
    else .go { s with pattern := rest, path, atPart := false, before := some '?' }
  | '[' :: rest =>
    match rest with
    | [] => .malformed
    | first :: more =>
      let negated := first == '!' || first == '^'
      let items := if negated then more else rest
      if items.head?.isNone || items.head? == some ']' then .malformed
      else
        let answer := searchClass ch (items.length + 1) none items
        if answer.found == negated then
          if answer.rest.isEmpty then .malformed else .fail answer.rest
        else match afterClass? answer.rest with
          | none => .malformed
          | some rest => .go { s with pattern := rest, path, atPart := false, before := some ']' }
  | '{' :: rest =>
    match closeBrace? 0 rest with
    | none => .malformed
    | some (inside, after) => .branch ((alternatives 0 inside).map (· ++ after))
  | '\\' :: rest =>
    match rest with
    | [] => .malformed
    | c :: rest =>
      if c == ch then .go { s with pattern := rest, path, atPart := c == '/', before := some c }
      else .fail ('\\' :: c :: rest)
  | c :: rest =>
    if c == ch then .go { s with pattern := rest, path, atPart := c == '/', before := some c }
    else if s.before == some '\\' then .fail ('\\' :: c :: rest)
    else .fail (c :: rest)

/-- Search until the path ends or no way is left: `none` when the pattern is malformed. -/
def run : Nat → Search → Option Bool
  | 0, _ => some false
  | fuel + 1, s =>
    match s.path with
    | [] => matchesNothing (s.pattern.length + 1) s.pattern
    | ch :: path =>
      match s.move ch path with
      | .go s => run fuel s
      | .found => some true
      | .malformed => none
      | .branch alternatives => firstAnswer (alternatives.map fun p => run fuel (s.withPattern p))
      | .fail failed =>
        match s.retry with
        | some s => run fuel s
        | none => if isWellFormed failed then some false else none

end Search

/-- Whether a path matches a pattern. -/
def accepts (pattern path : List Char) : Bool :=
  let fuel := (pattern.length + 2) * (path.length + 2) * (path.length + 2)
  Search.run fuel { pattern, path } == some true

end ModifierToggle.Glob

namespace ModifierToggle

/-- A way to read file patterns. -/
structure Matcher where
  /-- Whether a text is a well-formed pattern. -/
  isPattern : Text → Bool
  /-- Whether a path matches a pattern. -/
  accepts : (pattern path : Text) → Bool

/-- The file patterns of this file. -/
def Glob.matcher : Matcher where
  isPattern t := isWellFormed t.toChars
  accepts pattern path := accepts pattern.toChars path.toChars

end ModifierToggle
