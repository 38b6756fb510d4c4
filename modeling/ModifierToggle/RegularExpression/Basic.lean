import ModifierToggle.Text.LetterCase

set_option autoImplicit false

/-! # Regular expressions

A regular expression describes parts of a text. Whether a text has a part that matches is found out
for all places of the text at once: `advance` takes the places where a match may start and gives
those where it may end. No place is looked at twice on the way, so a repetition of something that
may be empty does no harm. -/

namespace ModifierToggle

/-! ## Sets of characters -/

/-- Characters in, or not in, some ranges of code points. Where `folded` holds, characters that
    differ in case only count as one. -/
structure CharRanges where
  ranges : List (Nat × Nat)
  negated : Bool := false
  folded : Bool := false
  deriving Repr, DecidableEq

namespace CharRanges

/-- Whether a character belongs to the ranges. -/
def contains (r : CharRanges) (c : Char) : Bool :=
  let within (n : Nat) : Bool := r.ranges.any fun (lo, hi) => lo ≤ n && n ≤ hi
  (if r.folded then (LetterCase.orbit c).any within else within c.toNat) != r.negated

end CharRanges

/-- A set of characters: those in one of several parts, or those in none of them. -/
structure CharSet where
  parts : List CharRanges
  negated : Bool := false
  deriving Repr, DecidableEq

namespace CharSet

/-- Whether a character belongs to the set. -/
def contains (s : CharSet) (c : Char) : Bool := s.parts.any (·.contains c) != s.negated

end CharSet

/-! ## Expressions -/

/-- A regular expression. -/
inductive RegularExpression where
  /-- One character of a set. -/
  | one (set : CharSet)
  | textStart
  | textEnd
  | lineStart
  | lineEnd
  /-- A place where a word starts or ends, or one where none does. -/
  | wordEdge (there : Bool)
  /-- One expression after the other. -/
  | all (parts : List RegularExpression)
  /-- One of several expressions. -/
  | any (alternatives : List RegularExpression)
  /-- An expression a number of times in a row. -/
  | times (least : Nat) (most : Option Nat) (part : RegularExpression)
  deriving Repr, Inhabited

/-- A place in a text: the character before it, and what is behind it. -/
structure TextPlace where
  before : Option Char
  rest : List Char

namespace TextPlace

/-- The places of a text, from the first to the last. -/
def ofChars (before : Option Char) : List Char → List TextPlace
  | [] => [⟨before, []⟩]
  | c :: rest => ⟨before, c :: rest⟩ :: ofChars (some c) rest

/-- Whether a character belongs to a word. -/
def isWordChar (c : Char) : Bool := c.isAlphanum || c == '_'

/-- Whether a word starts or ends here. -/
def atWordEdge (p : TextPlace) : Bool := p.before.any isWordChar != p.rest.head?.any isWordChar

/-- The places of two lists, which are both in order. -/
def union : Nat → List TextPlace → List TextPlace → List TextPlace
  | 0, a, _ => a
  | _ + 1, [], b => b
  | _ + 1, a, [] => a
  | fuel + 1, p :: a, q :: b =>
    if q.rest.length < p.rest.length then p :: union fuel a (q :: b)
    else if p.rest.length < q.rest.length then q :: union fuel (p :: a) b
    else p :: union fuel a b

/-- The places of either list. -/
def merge (a b : List TextPlace) : List TextPlace := union (a.length + b.length) a b

/-- Add what `step` makes of the places, `n` times or until nothing is new. -/
def spread (step : List TextPlace → List TextPlace) : Nat → List TextPlace → List TextPlace
  | 0, places => places
  | n + 1, places =>
    let more := merge places (step places)
    if more.length == places.length then places else spread step n more

/-- Do a step `n` times. -/
def repeated (step : List TextPlace → List TextPlace) : Nat → List TextPlace → List TextPlace
  | 0, places => places
  | n + 1, places => repeated step n (step places)

end TextPlace

namespace RegularExpression

open TextPlace

mutual

/-- The places where a match ends that starts at one of some places. -/
def advance : RegularExpression → List TextPlace → List TextPlace
  | .one set, places =>
    places.filterMap fun p =>
      match p.rest with
      | c :: rest => if set.contains c then some ⟨some c, rest⟩ else none
      | [] => none
  | .textStart, places => places.filter (·.before.isNone)
  | .textEnd, places => places.filter (·.rest.isEmpty)
  | .lineStart, places => places.filter fun p => p.before.all (· == '\n')
  | .lineEnd, places => places.filter fun p => p.rest.head?.all (· == '\n')
  | .wordEdge there, places => places.filter fun p => p.atWordEdge == there
  | .all parts, places => advanceAll parts places
  | .any alternatives, places => advanceAny alternatives places []
  | .times least most part, places =>
    let reached := repeated (advance part) least places
    match most with
    | some most => spread (advance part) (most - least) reached
    | none => spread (advance part) ((places.head?.map (·.rest.length)).getD 0 + 1) reached

/-- The places where a match of several expressions in a row ends. -/
def advanceAll : List RegularExpression → List TextPlace → List TextPlace
  | [], places => places
  | part :: rest, places => advanceAll rest (advance part places)

/-- The places where a match of one of several expressions ends, and the places `found` already. -/
def advanceAny : List RegularExpression → List TextPlace → List TextPlace → List TextPlace
  | [], _, found => found
  | next :: rest, places, found => advanceAny rest places (merge found (advance next places))

end

/-- Whether a text has a part that an expression matches. -/
def occursIn (r : RegularExpression) (text : List Char) : Bool :=
  !(r.advance (TextPlace.ofChars none text)).isEmpty

end RegularExpression

end ModifierToggle
