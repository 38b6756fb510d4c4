import ModifierToggle.Text.Basic

set_option autoImplicit false

/-! # Differences between two lists of lines

A difference is a list of *hunks*: runs of lines that both texts have, that only the old one has, or
that only the new one has. The lines kept and deleted make up the old text, the lines kept and
inserted the new one. Nothing here depends on what a line is, beyond telling two of them apart.

The hunks are found by divide and conquer. What both texts start or end with is kept. Of what
remains, one text may be part of the other, or both may share more than half of the longer one; else
the two are searched from both ends for the point where the shortest ways to edit one into the other
meet. Hunks of the parts are then tidied up: neighbours of one kind become one, deletions stand
before insertions, and an edit that can slide over a kept run next to it does so when that joins two
kept runs. -/

namespace ModifierToggle

/-- What becomes of the lines of a hunk. -/
inductive Change where
  | keep
  | delete
  | insert
  deriving Repr, DecidableEq

/-- A run of lines with what becomes of them. -/
structure Hunk (α : Type) where
  change : Change
  lines : List α
  deriving Repr, DecidableEq

namespace LineDiff

variable {α : Type} [DecidableEq α]

/-! ## Common parts -/

/-- How many elements two lists have in common at the start. -/
def commonLength : List α → List α → Nat
  | a :: as, b :: bs => if a = b then commonLength as bs + 1 else 0
  | _, _ => 0

/-- How many elements two lists have in common at the end. -/
def commonEndLength (as bs : List α) : Nat := commonLength as.reverse bs.reverse

/-- The place where a list first occurs in another one. -/
def find? (needle : List α) : List α → Option Nat
  | [] => if needle.isEmpty then some 0 else none
  | a :: as => if needle.isPrefixOf (a :: as) then some 0 else (find? needle as).map (· + 1)

/-! ## A large common middle -/

/-- A run that two lists share, with what stands before and behind it in the longer one and in the
    shorter one. -/
structure Middle (α : Type) where
  longBefore : List α
  longAfter : List α
  shortBefore : List α
  shortAfter : List α
  common : List α

/-- The run around place `i` of the longer list and place `j` of the shorter one. -/
def middleAround (long short : List α) (i j : Nat) : Middle α :=
  let forward := commonLength (long.drop i) (short.drop j)
  let backward := commonEndLength (long.take i) (short.take j)
  { longBefore := long.take (i - backward), longAfter := long.drop (i + forward)
    shortBefore := short.take (j - backward), shortAfter := short.drop (j + forward)
    common := (short.take (j + forward)).drop (j - backward) }

/-- The longest run around a quarter of the longer list that starts at `i`, if it is at least half
    as long as that list; of several, the first. -/
def middleAt? (long short : List α) (i : Nat) : Option (Middle α) :=
  let seed := (long.drop i).take (long.length / 4)
  let places := (List.range short.length).filter fun j => seed.isPrefixOf (short.drop j)
  let best := places.foldl (fun (best : Option (Middle α)) j =>
    let m := middleAround long short i j
    match best with
    | none => if m.common.isEmpty then none else some m
    | some b => if b.common.length < m.common.length then some m else some b) none
  best.filter fun m => long.length ≤ m.common.length * 2

/-- A run that is at least half as long as the longer list. -/
def middle? (long short : List α) : Option (Middle α) :=
  if long.length < 4 || short.length * 2 < long.length then none
  else
    let first := middleAt? long short ((long.length + 3) / 4)
    let second := middleAt? long short ((long.length + 1) / 2)
    match first, second with
    | none, m => m
    | m, none => m
    | some m, some n => some (if n.common.length < m.common.length then m else n)

/-! ## Meeting in the middle

A *diagonal* `k` holds the pairs of places whose difference is `k`. The furthest place reached on
each diagonal with `d` edits follows from those reached with one edit less. -/

/-- The furthest places reached, where diagonal `k` is entry `k + offset` and `-1` stands for none,
    and how many diagonals at either end have left the lists. -/
structure Front where
  reached : Array Int
  low : Int := 0
  high : Int := 0

/-- The two lists of a search, from one of their ends. -/
structure Grid (α : Type) where
  left : Array α
  right : Array α

namespace Front

/-- The entry for a diagonal. -/
def get (f : Front) (offset k : Int) : Int :=
  if offset + k < 0 then -1 else f.reached.getD (offset + k).toNat (-1)

/-- Follow equal elements along a diagonal. -/
def slide (g : Grid α) (k : Int) : Nat → Int → Int
  | 0, x => x
  | fuel + 1, x =>
    if 0 ≤ x && 0 ≤ x - k then
      match g.left[x.toNat]?, g.right[(x - k).toNat]? with
      | some a, some b => if a = b then slide g k fuel (x + 1) else x
      | _, _ => x
    else x

/-- The furthest place on diagonal `k` with `d` edits. -/
def furthest (g : Grid α) (offset d k : Int) (f : Front) : Int :=
  let below := f.get offset (k - 1)
  let above := f.get offset (k + 1)
  let x := if k = -d || (k ≠ d && below < above) then above else below + 1
  slide g k (g.left.size + 1) x

/-- Advance the diagonals from `k` on by one edit. Stops at a diagonal on which the place reached
    meets the place that `other`, the search from the other end, has reached there. -/
def advance (g : Grid α) (offset d delta : Int) (other : Option Front) :
    Nat → Int → Front → Front × Option Int
  | 0, _, f => (f, none)
  | fuel + 1, k, f =>
    if k ≤ d - f.high then
      let x := f.furthest g offset d k
      let f := { f with reached := f.reached.setIfInBounds (offset + k).toNat x }
      if (g.left.size : Int) < x then
        advance g offset d delta other fuel (k + 2) { f with high := f.high + 2 }
      else if (g.right.size : Int) < x - k then
        advance g offset d delta other fuel (k + 2) { f with low := f.low + 2 }
      else
        let facing := match other with
          | some o => o.get offset (delta - k)
          | none => -1
        if facing ≠ -1 && (g.left.size : Int) ≤ x + facing then (f, some k)
        else advance g offset d delta other fuel (k + 2) f
    else (f, none)

end Front

/-- Search from both ends with `d` edits and more, until the two searches meet. -/
def meetingFrom (g back : Grid α) (offset delta : Int) :
    Nat → Int → Front → Front → Option (Nat × Nat)
  | 0, _, _, _ => none
  | fuel + 1, d, f, b =>
    let odd := delta % 2 ≠ 0
    let steps := (2 * d + 1).toNat
    let (f, met) :=
      Front.advance g offset d delta (if odd then some b else none) steps (-d + f.low) f
    match met with
    | some k =>
      let x := f.get offset k
      some (x.toNat, (x - k).toNat)
    | none =>
      let (b, met) :=
        Front.advance back offset d delta (if odd then none else some f) steps (-d + b.low) b
      match met with
      | some k =>
        let x := f.get offset (delta - k)
        some (x.toNat, (x - (delta - k)).toNat)
      | none => meetingFrom g back offset delta fuel (d + 1) f b

/-- The places of two lists where the shortest ways from either end meet; `none` when the lists have
    nothing in common. -/
def meeting? (as bs : List α) : Option (Nat × Nat) :=
  let most := (as.length + bs.length + 1) / 2
  let start : Front :=
    { reached := (Array.replicate (2 * most) (-1 : Int)).setIfInBounds (most + 1) 0 }
  meetingFrom ⟨as.toArray, bs.toArray⟩ ⟨as.reverse.toArray, bs.reverse.toArray⟩ most
    (as.length - bs.length) most 0 start start

/-! ## Tidying up -/

/-- Add lines at the end of the hunks, held in reverse: to the last one when it is kept too. -/
def keepMore (lines : List α) : List (Hunk α) → List (Hunk α)
  | ⟨.keep, ls⟩ :: rest => ⟨.keep, ls ++ lines⟩ :: rest
  | done => ⟨.keep, lines⟩ :: done

/-- Join neighbouring hunks. `done` holds the hunks finished, in reverse; `deletes` and `inserts`
    are the edits since the last kept hunk. Between two kept hunks at most one deletion and one
    insertion remain, and what those two start or end with alike is kept. -/
def joinFrom (done : List (Hunk α)) (deletes inserts : List (List α)) :
    List (Hunk α) → List (Hunk α)
  | [] => done
  | ⟨.delete, ls⟩ :: rest => joinFrom done (deletes ++ [ls]) inserts rest
  | ⟨.insert, ls⟩ :: rest => joinFrom done deletes (inserts ++ [ls]) rest
  | ⟨.keep, ls⟩ :: rest =>
    let deleted := deletes.flatten
    let inserted := inserts.flatten
    match deletes, inserts with
    | [], [] => joinFrom (keepMore ls done) [] [] rest
    | _, [] => joinFrom (⟨.keep, ls⟩ :: ⟨.delete, deleted⟩ :: done) [] [] rest
    | [], _ => joinFrom (⟨.keep, ls⟩ :: ⟨.insert, inserted⟩ :: done) [] [] rest
    | _, _ =>
      let n := commonLength inserted deleted
      let done := if n = 0 then done else keepMore (inserted.take n) done
      let deleted := deleted.drop n
      let inserted := inserted.drop n
      let m := commonEndLength inserted deleted
      let ls := inserted.drop (inserted.length - m) ++ ls
      joinFrom
        (⟨.keep, ls⟩ :: ⟨.insert, inserted.take (inserted.length - m)⟩
          :: ⟨.delete, deleted.take (deleted.length - m)⟩ :: done)
        [] [] rest

/-- Join neighbouring hunks. -/
def join (hunks : List (Hunk α)) : List (Hunk α) :=
  match joinFrom [] [] [] (hunks ++ [⟨.keep, []⟩]) with
  | last :: done => (if last.lines.isEmpty then done else last :: done).reverse
  | [] => []

/-- Slide single edits over a kept neighbour, where the edit ends with the lines before it or starts
    with the lines behind it. Also tells whether any edit was moved. -/
def slideEdits : Nat → List (Hunk α) → List (Hunk α) × Bool
  | fuel + 1, p :: c :: n :: rest =>
    if p.change = .keep && n.change = .keep then
      if p.lines.isSuffixOf c.lines then
        let c := { c with lines := p.lines ++ c.lines.take (c.lines.length - p.lines.length) }
        (c :: (slideEdits fuel ({ n with lines := p.lines ++ n.lines } :: rest)).1, true)
      else if n.lines.isPrefixOf c.lines then
        let p := { p with lines := p.lines ++ n.lines }
        let c := { c with lines := c.lines.drop n.lines.length ++ n.lines }
        (p :: (slideEdits fuel (c :: rest)).1, true)
      else
        let (hunks, moved) := slideEdits fuel (c :: n :: rest)
        (p :: hunks, moved)
    else
      let (hunks, moved) := slideEdits fuel (c :: n :: rest)
      (p :: hunks, moved)
  | _, hunks => (hunks, false)

/-- Join hunks and slide edits until nothing moves any more. -/
def tidy : Nat → List (Hunk α) → List (Hunk α)
  | 0, hunks => hunks
  | fuel + 1, hunks =>
    let hunks := join hunks
    let (hunks, moved) := slideEdits hunks.length hunks
    if moved then tidy fuel hunks else hunks

/-! ## Putting it together -/

mutual

/-- The hunks of two lists. -/
def hunksOf : Nat → List α → List α → List (Hunk α)
  | 0, as, bs => [⟨.delete, as⟩, ⟨.insert, bs⟩]
  | fuel + 1, as, bs =>
    if as = bs then if as.isEmpty then [] else [⟨.keep, as⟩]
    else
      let n := commonLength as bs
      let start := as.take n
      let as := as.drop n
      let bs := bs.drop n
      let m := commonEndLength as bs
      let finish := as.drop (as.length - m)
      let middle := hunksBetween fuel (as.take (as.length - m)) (bs.take (bs.length - m))
      let hunks := (if start.isEmpty then [] else [⟨.keep, start⟩]) ++ middle
        ++ if finish.isEmpty then [] else [⟨.keep, finish⟩]
      tidy (hunks.length + as.length + bs.length + 2) hunks

/-- The hunks of two lists that start and end with different elements. -/
def hunksBetween : Nat → List α → List α → List (Hunk α)
  | 0, as, bs => [⟨.delete, as⟩, ⟨.insert, bs⟩]
  | fuel + 1, as, bs =>
    if as.isEmpty then [⟨.insert, bs⟩]
    else if bs.isEmpty then [⟨.delete, as⟩]
    else
      let shrinks := bs.length < as.length
      let long := if shrinks then as else bs
      let short := if shrinks then bs else as
      match find? short long with
      | some i =>
        let change := if shrinks then Change.delete else Change.insert
        [⟨change, long.take i⟩, ⟨.keep, short⟩, ⟨change, long.drop (i + short.length)⟩]
      | none =>
        if short.length = 1 then [⟨.delete, as⟩, ⟨.insert, bs⟩]
        else match middle? long short with
          | some m =>
            let (before, after) :=
              if shrinks then
                (hunksOf fuel m.longBefore m.shortBefore, hunksOf fuel m.longAfter m.shortAfter)
              else
                (hunksOf fuel m.shortBefore m.longBefore, hunksOf fuel m.shortAfter m.longAfter)
            before ++ ⟨.keep, m.common⟩ :: after
          | none =>
            match meeting? as bs with
            | some (x, y) =>
              hunksOf fuel (as.take x) (bs.take y) ++ hunksOf fuel (as.drop x) (bs.drop y)
            | none => [⟨.delete, as⟩, ⟨.insert, bs⟩]

end

/-- The difference between two lists. -/
def diff (as bs : List α) : List (Hunk α) := hunksOf (2 * (as.length + bs.length) + 4) as bs

end LineDiff

end ModifierToggle
