import ModifierToggle.Text.Composition.Table
import ModifierToggle.Text.Utf8

set_option autoImplicit false

/-! # Composed characters

A letter with an accent can be written as one character or as a letter and a mark, and some
characters only repeat another one. A text is *composed* when it has the single characters wherever
there are any, so that texts which look the same are the same. It is composed in three steps: every
character is taken apart, the marks on a letter are put in order of their class, and what fits
together is put together again.

A text is worked on a *segment* at a time: a letter and the characters that go with it. No more than
thirty of those are taken into a segment; then a joiner, which is not seen, is put behind them. -/

namespace ModifierToggle

namespace Composition

/-- The combining class of a character: 0 for a letter, and for a mark the place where it goes. -/
def classOf (c : Nat) : Nat :=
  match classRanges.find? fun (first, last, _) => first ≤ c && c ≤ last with
  | some (_, _, k) => k
  | none => 0

/-! ## Hangul syllables

A syllable is a leading consonant, a vowel and possibly a trailing consonant, and syllables are
numbered in that order. -/

def leadBase : Nat := 0x1100
def vowelBase : Nat := 0x1161
def tailBase : Nat := 0x11A7
def syllableBase : Nat := 0xAC00
def leadCount : Nat := 19
def vowelCount : Nat := 21
def tailCount : Nat := 28

/-- The number of a syllable among the syllables. -/
def syllable? (c : Nat) : Option Nat :=
  if syllableBase ≤ c && c < syllableBase + leadCount * vowelCount * tailCount then
    some (c - syllableBase)
  else none

/-- The parts of the syllable with a given number. -/
def syllableParts (n : Nat) : List Nat :=
  let lead := leadBase + n / (vowelCount * tailCount)
  let vowel := vowelBase + n % (vowelCount * tailCount) / tailCount
  let tail := n % tailCount
  if tail = 0 then [lead, vowel] else [lead, vowel, tailBase + tail]

/-- The syllable of a leading consonant and a vowel, or of a syllable without a tail and one. -/
def syllableOf? (a b : Nat) : Option Nat :=
  if leadBase ≤ a && a < leadBase + leadCount
      && vowelBase ≤ b && b < vowelBase + vowelCount then
    some (syllableBase + ((a - leadBase) * vowelCount + (b - vowelBase)) * tailCount)
  else match syllable? a with
    | some n =>
      if n % tailCount == 0 && tailBase < b && b < tailBase + tailCount then
        some (a + (b - tailBase))
      else none
    | none => none

/-! ## Taking apart and putting together -/

/-- How often a part of a character can have parts of its own. -/
def depth : Nat := 4

/-- The characters that a character is made of, taken apart `fuel` times. -/
def parts : Nat → Nat → List Nat
  | 0, c => [c]
  | fuel + 1, c =>
    match syllable? c with
    | some n => syllableParts n
    | none =>
      match singles.lookup c with
      | some d => parts fuel d
      | none =>
        match (pairs ++ openPairs).lookup c with
        | some (a, b) => parts fuel a ++ parts fuel b
        | none => [c]

/-- The character that two others, other than parts of a syllable, are written as. -/
def join? (a b : Nat) : Option Nat :=
  (pairs.find? fun (_, x, y) => x == a && y == b).map (·.1)

/-- Whether a character can be the second of two that are written as one. -/
def joinsBack (c : Nat) : Bool :=
  (vowelBase ≤ c && c < vowelBase + vowelCount) || (tailBase < c && c < tailBase + tailCount)
    || pairs.any (·.2.2 == c)

/-- Whether a character goes with the letter before it. -/
def attaches (c : Nat) : Bool := classOf c != 0 || joinsBack c

/-- How many of the characters that a character stands for go with a letter before it, and how many
    at its end go with a letter in it. -/
def marks (c : Nat) : Nat × Nat :=
  match looseMarks.find? fun (first, last, _) => first ≤ c && c ≤ last with
  | some (_, _, atStart, atEnd) => (atStart, atEnd)
  | none =>
    let ps := parts depth c
    ((ps.takeWhile attaches).length, (ps.reverse.takeWhile attaches).length)

/-! ## Segments -/

/-- Put a character behind others, which stand in reverse: a mark goes in front of the marks with a
    higher class. -/
def arrange (c : Nat) : List Nat → List Nat
  | [] => [c]
  | d :: before =>
    if classOf c ≠ 0 && classOf c < classOf d then d :: arrange c before else c :: d :: before

/-- A segment that is being put together: the character that others are joined to, those in front of
    it and those behind it, both in reverse. -/
structure Joining where
  before : List Nat
  target : Nat
  after : List Nat

namespace Joining

/-- The characters of the segment, in order. -/
def toList (j : Joining) : List Nat := j.before.reverse ++ j.target :: j.after.reverse

/-- The combining class of the last character. -/
def lastClass (j : Joining) : Nat := classOf (j.after.headD j.target)

/-- Leave a character on its own. -/
def push (j : Joining) (c : Nat) : Joining := { j with after := c :: j.after }

/-- Join to the last character from now on, if it is a letter. -/
def advance (j : Joining) : Joining :=
  match j.after with
  | [] => j
  | c :: rest => if classOf c = 0 then ⟨rest ++ j.target :: j.before, c, []⟩ else j

/-- Whether the characters in between keep a character from the one it would be joined to. -/
def blocks (j : Joining) (c : Nat) : Bool := !j.after.isEmpty && classOf c ≤ j.lastClass

/-- Join a character by a rule, or leave it on its own. -/
def join (rule : Nat → Nat → Option Nat) (j : Joining) (c : Nat) : Joining :=
  match if j.blocks c then none else rule j.target c with
  | some d => { j with target := d }
  | none => j.push c

/-- Join one character after the other. From the first part of a syllable on, nothing but syllables
    is put together. -/
def joinAll (j : Joining) (syllables : Bool) : List Nat → List Nat
  | [] => j.toList
  | c :: rest =>
    if syllables || (0x1100 ≤ c && c ≤ 0x11FF) then
      joinAll (j.advance.join syllableOf? c) true rest
    else if joinsBack c then joinAll (j.advance.join join? c) false rest
    else joinAll (j.push c) false rest

end Joining

/-- Put the characters of a segment together; they stand in reverse. -/
def closeSegment (segment : List Nat) : List Nat :=
  match segment.reverse with
  | [] => []
  | c :: rest => Joining.joinAll ⟨[], c, []⟩ false rest

/-- Take a character apart into a segment, which stands in reverse. A part that goes with no letter
    before it starts another segment, so finished ones may come of it. -/
def intoSegment (segment : List Nat) (c : Nat) : List Nat × List Nat :=
  match parts depth c with
  | [] => ([], segment)
  | p :: more =>
    more.foldl (fun (done, segment) p =>
      if attaches p then (done, arrange p segment) else (done ++ closeSegment segment, [p]))
      ([], arrange p segment)

/-- The number of characters that go with the letter of a segment, at most. -/
def segmentLimit : Nat := 30

/-- The joiner that ends a segment which is full. -/
def joiner : Nat := 0x34F

/-- The composed form of a sequence of characters behind a segment, in which `count` characters go
    with the letter. -/
def composeFrom (count : Nat) (segment : List Nat) : List Nat → List Nat
  | [] => closeSegment segment
  | c :: rest =>
    let (atStart, atEnd) := marks c
    if atStart = 0 then
      let (done, next) := intoSegment [] c
      closeSegment segment ++ done ++ composeFrom atEnd next rest
    else if segmentLimit < count + atStart then
      let (done, next) := intoSegment [] c
      closeSegment (joiner :: segment) ++ done ++ composeFrom atStart next rest
    else
      let (done, next) := intoSegment segment c
      done ++ composeFrom (count + atStart) next rest

/-- The composed form of a sequence of characters. -/
def compose (cs : List Nat) : List Nat := composeFrom 0 [] cs

/-- The number of a piece: that of its character, or one beyond all characters for a stray byte. -/
def numberOf : Piece → Nat
  | .char c => c.toNat
  | .stray b => 0x110000 + b.toNat

/-- The bytes of the piece with a number. -/
def bytesOf (n : Nat) : Text :=
  if n < 0x110000 then Utf8.encode (Char.ofNat n) else [UInt8.ofNat (n - 0x110000)]

end Composition

namespace Text

/-- The composed form of a text. Stray bytes stay where they are, and go with nothing. -/
def composed (t : Text) : Text :=
  if t.all (· < 0x80) then t
  else (Composition.compose (t.pieces.map Composition.numberOf)).flatMap Composition.bytesOf

end Text

end ModifierToggle
