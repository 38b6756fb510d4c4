import ModifierToggle.Text.Cluster.Table
import ModifierToggle.Text.Scanner
import ModifierToggle.Text.Utf8

set_option autoImplicit false

/-! # Grapheme clusters

Columns are counted in grapheme clusters, what a reader takes for one character. A text is read as a
sequence of *units*, each a character with its class or a byte that belongs to none, and the rules
of this file say how many units the first cluster of a sequence takes. Those rules need no look
behind: a text is cut into clusters from the left, as a `Splitter` does it.

The replacement character attaches to nothing, and neither does a stray byte. A sequence with the
shape of a UTF-8 character but no well-formed value is one unit of the class `other`. -/

namespace ModifierToggle.Cluster

/-! ## Units -/

/-- How a unit takes part in clusters. -/
inductive Class where
  | carriageReturn
  | lineFeed
  | control
  | prepend
  | extend
  | spacingMark
  | joiner
  | regional
  | hangulL
  | hangulV
  | hangulT
  | hangulLV
  | hangulLVT
  | pictograph
  | other
  | broken
  deriving Repr, DecidableEq

/-- A unit of text: its class and its size in bytes. -/
structure CodeUnit where
  kind : Class
  size : Nat
  deriving Repr, DecidableEq

/-- Whether a code point lies in one of the ranges. -/
def inRanges (n : Nat) (ranges : List (Nat × Nat)) : Bool :=
  ranges.any fun (lo, hi) => lo ≤ n && n ≤ hi

/-- The class of a code point. -/
def classOf (n : Nat) : Class :=
  if n == 0x0D then .carriageReturn
  else if n == 0x0A then .lineFeed
  else if 0x20 ≤ n && n < 0x7F then .other
  else if n == 0x200D then .joiner
  else if n == 0xFFFD || inRanges n controlRanges then .control
  else if 0x1F1E6 ≤ n && n ≤ 0x1F1FF then .regional
  else if (0x1100 ≤ n && n ≤ 0x115F) || (0xA960 ≤ n && n ≤ 0xA97C) then .hangulL
  else if (0x1160 ≤ n && n ≤ 0x11A7) || (0xD7B0 ≤ n && n ≤ 0xD7C6) then .hangulV
  else if (0x11A8 ≤ n && n ≤ 0x11FF) || (0xD7CB ≤ n && n ≤ 0xD7FB) then .hangulT
  else if 0xAC00 ≤ n && n ≤ 0xD7A3 then
    if (n - 0xAC00) % 28 == 0 then .hangulLV else .hangulLVT
  else if inRanges n extendRanges then .extend
  else if inRanges n spacingMarkRanges then .spacingMark
  else if inRanges n prependRanges then .prepend
  else if inRanges n pictographRanges then .pictograph
  else .other

/-- The number of bytes after a lead byte that the lead byte asks for. -/
def tailLength? (b : UInt8) : Option Nat :=
  if 0xC0 ≤ b && b ≤ 0xDF then some 1
  else if 0xE0 ≤ b && b ≤ 0xEF then some 2
  else if 0xF0 ≤ b && b ≤ 0xF7 then some 3
  else none

/-- The unit at the front of `b :: rest`. -/
def unitAt (b : UInt8) (rest : Text) : CodeUnit :=
  match Utf8.front? b rest with
  | some (c, more) => ⟨classOf c.toNat, more + 1⟩
  | none =>
    match tailLength? b with
    | some n =>
      if (rest.take n).length == n && (rest.take n).all Utf8.isContinuation then ⟨.other, n + 1⟩
      else ⟨.broken, 1⟩
    | none => ⟨.broken, 1⟩

/-- The units of a text, where the first `skip` bytes belong to a unit already produced. -/
def unitsAfter : Nat → Text → List CodeUnit
  | _, [] => []
  | skip + 1, _ :: rest => unitsAfter skip rest
  | 0, b :: rest =>
    let u := unitAt b rest
    u :: unitsAfter (u.size - 1) rest

/-- The first `n` of these units. -/
def unitsUpTo : (n skip : Nat) → Text → List CodeUnit
  | 0, _, _ => []
  | _ + 1, _, [] => []
  | n + 1, skip + 1, _ :: rest => unitsUpTo (n + 1) skip rest
  | n + 1, 0, b :: rest =>
    let u := unitAt b rest
    u :: unitsUpTo n (u.size - 1) rest

/-- The bytes that some units take. -/
def width (us : List CodeUnit) : Nat := us.foldr (fun u n => u.size + n) 0

/-! ## The extent of a cluster -/

/-- The marks that extend any cluster. -/
def Class.isMark : Class → Bool
  | .extend | .spacingMark | .joiner => true
  | _ => false

/-- The number of units that extend an emoji, a flag or a Hangul syllable: marks, where a joiner
    takes a following pictograph along. -/
def extension : List CodeUnit → Nat
  | ⟨.extend, _⟩ :: rest => extension rest + 1
  | ⟨.spacingMark, _⟩ :: rest => extension rest + 1
  | ⟨.joiner, _⟩ :: ⟨.pictograph, _⟩ :: rest => extension rest + 2
  | ⟨.joiner, _⟩ :: rest => extension rest + 1
  | _ => 0

/-- The number of leading units of a class. -/
def run (k : Class) (us : List CodeUnit) : Nat := (us.takeWhile (·.kind == k)).length

/-- The number of units in the Hangul syllable at the front. -/
def syllable : List CodeUnit → Nat
  | ⟨.hangulL, _⟩ :: rest =>
    let ls := run .hangulL rest + 1
    let after := rest.drop (ls - 1)
    match after with
    | ⟨.hangulLV, _⟩ :: tail =>
      let vs := run .hangulV tail
      if vs == 0 then ls + 1 else ls + 1 + vs + run .hangulT (tail.drop vs)
    | ⟨.hangulLVT, _⟩ :: tail => ls + 1 + run .hangulT tail
    | ⟨.hangulV, _⟩ :: tail =>
      let vs := run .hangulV tail
      ls + 1 + vs + run .hangulT (tail.drop vs)
    | _ => ls
  | ⟨.hangulLV, _⟩ :: rest | ⟨.hangulV, _⟩ :: rest =>
    let vs := run .hangulV rest
    1 + vs + run .hangulT (rest.drop vs)
  | ⟨.hangulLVT, _⟩ :: rest | ⟨.hangulT, _⟩ :: rest => 1 + run .hangulT rest
  | _ => 0

/-- The number of units in a cluster that starts with neither a control character nor a character
    that attaches to the next; 0 when there is no such cluster at the front. -/
def core : List CodeUnit → Nat
  | [] => 0
  | ⟨.regional, _⟩ :: ⟨.regional, _⟩ :: rest => 2 + extension rest
  | ⟨kind, size⟩ :: rest =>
    match kind with
    | .carriageReturn | .lineFeed | .control | .broken | .prepend => 0
    | .pictograph | .regional => 1 + extension rest
    | .joiner | .extend | .spacingMark | .other => 1 + (rest.takeWhile (·.kind.isMark)).length
    | .hangulL | .hangulV | .hangulT | .hangulLV | .hangulLVT =>
      let n := syllable (⟨kind, size⟩ :: rest)
      n + extension (rest.drop (n - 1))

/-- The number of units in the first cluster; at least 1 when there are units at all. -/
def extent : List CodeUnit → Nat
  | [] => 0
  | ⟨.carriageReturn, _⟩ :: ⟨.lineFeed, _⟩ :: _ => 2
  | ⟨.prepend, _⟩ :: rest =>
    let ps := run .prepend rest
    1 + ps + core (rest.drop ps)
  | us => max 1 (core us)

/-! ## Splitting a text into clusters -/

/-- How many units are looked at first to find a cluster. -/
def near : Nat := 32

/-- The units in which the first cluster of a text is found: the near ones if it ends before the
    last of them, and all of them otherwise. -/
def unitsAhead (t : Text) : List CodeUnit :=
  let few := unitsUpTo near 0 t
  if extent few < few.length then few else unitsAfter 0 t

/-- The number of bytes of the first cluster. -/
def firstSize (t : Text) : Nat :=
  let us := unitsAhead t
  width (us.take (extent us))

/-- Whether no cluster is found at the front as long as more text may follow: a unit that is broken
    may be completed by it. So may the end of a line, which makes one cluster of two characters. -/
def Class.stalls : Class → Bool
  | .broken | .carriageReturn | .lineFeed => true
  | _ => false

/-- Clusters as tokens. -/
def splitter : Splitter where
  scan t atEnd :=
    match t with
    | [] => .more
    | b :: rest =>
      if !atEnd && (unitAt b rest).kind.stalls then .more else .token (firstSize (b :: rest))

end ModifierToggle.Cluster
