import ModifierToggle.Proofs.CommentLexer
import ModifierToggle.Proofs.Occurrences
import ModifierToggle.Proofs.Pieces

set_option autoImplicit false

/-! # Reading with checked bounds

The library cuts texts at offsets with operations that give something at every offset. Here the
reading of lines, comments and keywords is written with slices that fail at an offset outside the
text, and with offsets that can be negative. The two are the same: no slice fails, whatever the
text. -/

namespace ModifierToggle

/-- A slice that a list of some length does not have. -/
structure BoundsError where
  start : Int
  stop : Int
  length : Nat
  deriving Repr, DecidableEq

namespace Checked

@[simp] theorem ok_bind {α β : Type} (a : α) (f : α → Except BoundsError β) :
    (Except.ok a >>= f) = f a := rfl

/-! ## Slices -/

section

variable {α : Type}

/-- The elements from offset `start` up to, not including, offset `stop`. -/
def slice (xs : List α) (start stop : Int) : Except BoundsError (List α) :=
  if 0 ≤ start ∧ start ≤ stop ∧ stop ≤ xs.length then
    .ok ((xs.take stop.toNat).drop start.toNat)
  else .error ⟨start, stop, xs.length⟩

/-- The elements up to an offset. -/
def upTo (xs : List α) (stop : Int) : Except BoundsError (List α) := slice xs 0 stop

/-- The elements from an offset on. -/
def onward (xs : List α) (start : Int) : Except BoundsError (List α) := slice xs start xs.length

/-- The element at an offset. -/
def get (xs : List α) (i : Int) : Except BoundsError α :=
  match (if 0 ≤ i then xs[i.toNat]? else none) with
  | some x => .ok x
  | none => .error ⟨i, i + 1, xs.length⟩

variable {xs : List α}

theorem slice_eq {i j : Nat} (hij : i ≤ j) (hj : j ≤ xs.length) :
    slice xs i j = .ok ((xs.take j).drop i) := by
  rw [slice, if_pos ⟨by omega, by omega, by omega⟩, Int.toNat_natCast, Int.toNat_natCast]

theorem upTo_eq {j : Nat} (hj : j ≤ xs.length) : upTo xs j = .ok (xs.take j) := by
  rw [upTo, ← Int.natCast_zero, slice_eq (Nat.zero_le j) hj, List.drop_zero]

theorem onward_eq {i : Nat} (hi : i ≤ xs.length) : onward xs i = .ok (xs.drop i) := by
  rw [onward, slice_eq hi (Nat.le_refl _), List.take_length]

theorem get_eq {i : Nat} {x : α} (h : xs[i]? = some x) : get xs i = .ok x := by
  rw [get, if_pos (Int.natCast_nonneg i), Int.toNat_natCast, h]

end

/-! ## Lines -/

/-- The lines of a text. -/
def lines (t : Text) : Except BoundsError (List Text) :=
  t.lineSpans.mapM fun s => slice t s.start s.stop

/-- Lines lie in the text. -/
theorem lineSpan_mem_scan {t : Text} {start pos : Nat} {afterReturn : Bool} {s : LineSpan}
    (hs : s ∈ LineSpan.scan start pos afterReturn t) (hstart : start ≤ pos)
    (hreturn : afterReturn = true → start < pos) :
    s.start ≤ s.stop ∧ s.stop ≤ pos + t.length := by
  induction t generalizing start pos afterReturn with
  | nil =>
    rw [LineSpan.scan, List.mem_singleton] at hs
    subst hs
    exact ⟨hstart, by simp⟩
  | cons b t ih =>
    rw [LineSpan.scan] at hs
    rw [List.length_cons]
    split at hs
    · rcases List.mem_cons.1 hs with rfl | hs
      · cases afterReturn with
        | true =>
          have := hreturn rfl
          simp only [if_true]
          omega
        | false =>
          simp only [Bool.false_eq_true, if_false]
          omega
      · have := ih hs (Nat.le_refl _) (by simp)
        omega
    · have := ih hs (by omega) (fun _ => by omega)
      omega

theorem mapM_ok {α β : Type} {f : α → Except BoundsError β} {g : α → β} {xs : List α}
    (h : ∀ x ∈ xs, f x = .ok (g x)) : xs.mapM f = .ok (xs.map g) := by
  induction xs with
  | nil => rfl
  | cons x xs ih =>
    rw [List.mapM_cons, h x List.mem_cons_self, ih fun y hy => h y (List.mem_cons_of_mem _ hy)]
    rfl

theorem lines_eq (t : Text) : lines t = .ok t.lines := by
  refine mapM_ok fun s hs => ?_
  obtain ⟨hle, hlength⟩ := lineSpan_mem_scan hs (Nat.le_refl 0) (by simp)
  rw [slice_eq hle (by omega)]
  rfl

/-! ## Comments -/

/-- The code of a line from an offset outside comments on, and whether a block comment is open at
    its end. -/
def strip (line : Text) (i : Nat) : Except BoundsError (Text × Bool) :=
  if i < line.length then do
    let rest ← onward line i
    if [Byte.slash, Byte.slash].isPrefixOf rest then pure ([], false)
    else if [Byte.slash, Byte.star].isPrefixOf rest then
      let inside ← onward line (i + 2)
      match Text.find? [Byte.star, Byte.slash] inside with
      | none => pure ([], true)
      | some close =>
        let (code, opened) ← strip line (i + (2 + close + 2))
        pure (List.replicate (2 + close + 2) Byte.space ++ code, opened)
    else
      let b ← get line i
      let (code, opened) ← strip line (i + 1)
      pure (b :: code, opened)
  else pure ([], false)
termination_by line.length - i

/-- The code of a line that starts inside a block comment when `inBlock` holds, and whether a block
    comment is open at its end. -/
def stripLine (inBlock : Bool) (line : Text) : Except BoundsError (Text × Bool) :=
  if inBlock then
    match Text.find? [Byte.star, Byte.slash] line with
    | none => pure ([], true)
    | some close => do
      let (code, opened) ← strip line (close + 2)
      pure (List.replicate (close + 2) Byte.space ++ code, opened)
  else strip line 0

/-- The code of consecutive lines. -/
def stripLines (inBlock : Bool) : List Text → Except BoundsError (List Text)
  | [] => pure []
  | line :: rest => do
    let (code, opened) ← stripLine inBlock line
    let codes ← stripLines opened rest
    pure (code :: codes)

/-- The lines of a span that exist, with their code. -/
def codeLines (b : Buffer) (span : Span) : Except BoundsError (List CodeLine) := do
  let all ← lines b.text
  let texts := (all.take (span.last + 1).toNat).drop span.first.toNat
  let codes ← stripLines false texts
  pure (CodeLine.numbered span.first.toNat (texts.zip codes))

theorem isPrefixOf_pair (a c b : UInt8) (x : Text) :
    [a, c].isPrefixOf (b :: x) = true ↔ b = a ∧ x.head? = some c := by
  cases x with
  | nil => simp
  | cons d x =>
    simp only [List.isPrefixOf_cons_cons, List.isPrefixOf_nil_left, Bool.and_true, Bool.and_eq_true,
      beq_iff_eq, List.head?_cons, Option.some.injEq]
    exact ⟨fun h => ⟨h.1.symm, h.2.symm⟩, fun h => ⟨h.1.symm, h.2.symm⟩⟩

/-- A block comment ends at the first `*/`. -/
theorem strip_block (width : Nat) (x : Text) :
    Comment.strip (.block width) x =
      match Text.find? [Byte.star, Byte.slash] x with
      | none => ([], true)
      | some close =>
        (List.replicate (width + (close + 2)) Byte.space
          ++ (Comment.strip .code (x.drop (close + 2))).1,
          (Comment.strip .code (x.drop (close + 2))).2) := by
  induction x generalizing width with
  | nil => rfl
  | cons b x ih =>
    by_cases hcloses : Comment.Closes b x
    · have hprefix := (isPrefixOf_pair Byte.star Byte.slash b x).2 hcloses
      obtain ⟨rfl, hhead⟩ := hcloses
      obtain ⟨x, rfl⟩ := List.head?_eq_some_iff.1 hhead
      rw [Text.find?, if_pos hprefix]
      rfl
    · have hprefix := mt (isPrefixOf_pair Byte.star Byte.slash b x).1 hcloses
      rw [Comment.strip_inside hcloses, ih, Text.find?, if_neg hprefix]
      cases Text.find? [Byte.star, Byte.slash] x with
      | none => rfl
      | some close =>
        have hwidth : width + (close + 1 + 2) = width + 1 + (close + 2) := by omega
        simp only [Option.map_some, hwidth]
        rfl

/-- No slice fails in removing comments from code. -/
theorem strip_eq (x : Text) (i : Nat) :
    strip x i = .ok (Comment.strip .code (x.drop i)) := by
  fun_induction strip x i with
  | case1 i hi ihBlock ihByte =>
    have hdrop : x.drop i = x[i] :: x.drop (i + 1) := List.drop_eq_getElem_cons hi
    rw [onward_eq (Nat.le_of_lt hi), ok_bind, hdrop]
    have hline := isPrefixOf_pair Byte.slash Byte.slash x[i] (x.drop (i + 1))
    have hblock := isPrefixOf_pair Byte.slash Byte.star x[i] (x.drop (i + 1))
    by_cases hslash : x[i] = Byte.slash ∧ (x.drop (i + 1)).head? = some Byte.slash
    · rw [if_pos (hline.2 hslash)]
      obtain ⟨rest, hrest⟩ := List.head?_eq_some_iff.1 hslash.2
      rw [hslash.1, hrest]
      rfl
    · rw [if_neg (mt hline.1 hslash)]
      by_cases hstar : x[i] = Byte.slash ∧ (x.drop (i + 1)).head? = some Byte.star
      · rw [if_pos (hblock.2 hstar)]
        obtain ⟨rest, hrest⟩ := List.head?_eq_some_iff.1 hstar.2
        have hinside : x.drop (i + 2) = rest := by
          rw [show i + 2 = i + 1 + 1 by omega, ← List.drop_drop, hrest]
          rfl
        have hlength : i + 2 ≤ x.length := by
          have := congrArg List.length hrest
          rw [List.length_drop, List.length_cons] at this
          omega
        have honward : onward x ((i : Int) + 2) = .ok (x.drop (i + 2)) := onward_eq hlength
        rw [honward, ok_bind, hstar.1, hrest, hinside]
        show _ = Except.ok (Comment.strip (.block 2) rest)
        rw [strip_block]
        cases Text.find? [Byte.star, Byte.slash] rest with
        | none => rfl
        | some close =>
          have hdrop' : x.drop (i + (2 + close + 2)) = rest.drop (close + 2) := by
            rw [← hinside, List.drop_drop]
            congr 1
            omega
          simp only [ihBlock, ok_bind, hdrop']
          rw [Nat.add_assoc 2 close 2]
          rfl
      · rw [if_neg (mt hblock.1 hstar), get_eq (List.getElem?_eq_getElem hi), ok_bind, ihByte,
          Comment.strip_byte fun hopens => hopens.2.elim (fun h => hslash ⟨hopens.1, h⟩)
            fun h => hstar ⟨hopens.1, h⟩]
        rfl
  | case2 i hi =>
    rw [List.drop_eq_nil_of_le (Nat.not_lt.1 hi)]
    rfl

theorem stripLine_eq (inBlock : Bool) (line : Text) :
    stripLine inBlock line = .ok (Comment.stripLine inBlock line) := by
  cases inBlock with
  | false => exact strip_eq line 0
  | true =>
    show stripLine true line = .ok (Comment.strip (.block 0) line)
    rw [stripLine, if_pos rfl, strip_block]
    cases Text.find? [Byte.star, Byte.slash] line with
    | none => rfl
    | some close =>
      simp only [strip_eq, ok_bind, Nat.zero_add]
      rfl

theorem stripLines_eq (inBlock : Bool) (lines : List Text) :
    stripLines inBlock lines = .ok (Comment.stripLines inBlock lines) := by
  induction lines generalizing inBlock with
  | nil => rfl
  | cons line lines ih =>
    simp only [stripLines, stripLine_eq, ok_bind, ih]
    rfl

/-- **No slice fails in finding the code of some lines.** -/
theorem codeLines_eq (b : Buffer) (span : Span) : codeLines b span = .ok (b.codeLines span) := by
  rw [codeLines, lines_eq, ok_bind]
  simp only [stripLines_eq, ok_bind]
  rfl

/-! ## Keywords -/

/-- The first of some occurrences before which there is no word byte. -/
def firstAlone (t : Text) : List Keyword.Occurrence → Except BoundsError (Option Keyword.Occurrence)
  | [] => pure none
  | at_ :: rest => do
    let afterWord ←
      if 0 < at_.start then Byte.isWord <$> get t ((at_.start : Int) - 1) else pure false
    if afterWord then firstAlone t rest else pure (some at_)

end Checked

namespace Keyword.Pattern

variable (p : Pattern)

/-- The occurrences of the words in the rest of a text from offset `pos` on, without overlap. The
    next `skip` bytes belong to an occurrence. -/
def occurrences (pos : Nat) : Nat → Text → List Occurrence
  | _, [] => []
  | skip + 1, _ :: rest => occurrences (pos + 1) skip rest
  | 0, b :: rest =>
    match p.front? (b :: rest) with
    | some (word, close) =>
      ⟨pos, pos + word, pos + word + close⟩ :: occurrences (pos + 1) (word + close - 1) rest
    | none => occurrences (pos + 1) 0 rest

/-- The occurrences of the words in pieces of a text, as `occurrences` has them for bytes. -/
def occurrencesIn (pos : Nat) : Nat → List Piece → List Occurrence
  | _, [] => []
  | skip + 1, piece :: rest => occurrencesIn (pos + piece.bytes.length) skip rest
  | 0, piece :: rest =>
    match p.frontPieces? (piece :: rest) with
    | some (length, size, count, close) =>
      ⟨pos, pos + (if p.nominal then length else size), pos + size + close⟩
        :: occurrencesIn (pos + piece.bytes.length) (count + close - 1) rest
    | none => occurrencesIn (pos + piece.bytes.length) 0 rest

end Keyword.Pattern

namespace Checked

open Keyword

variable (p : Pattern)

/-- The first occurrence of one of the words that stands alone. -/
def find? (t : Text) : Except BoundsError (Option Occurrence) :=
  if p.hasReplacement then firstAlone t (p.occurrencesIn 0 0 t.pieces)
  else firstAlone t (p.occurrences 0 0 t)

/-- An occurrence that is looked at from behind what comes before it. -/
theorem firstAlone_cons (pre t : Text) (stop next : Nat) (rest : List Occurrence) :
    firstAlone (pre ++ t) (⟨pre.length, stop, next⟩ :: rest)
      = if pre.getLast?.any Byte.isWord then firstAlone (pre ++ t) rest
        else .ok (some ⟨pre.length, stop, next⟩) := by
  rw [firstAlone]
  rcases List.eq_nil_or_concat pre with rfl | ⟨front, b, rfl⟩
  · rfl
  · have hlength : ((front ++ [b]).length : Int) - 1 = front.length := by simp
    have hbyte : (front ++ [b] ++ t)[front.length]? = some b := by simp
    simp only [List.concat_eq_append]
    rw [if_pos (by simp), hlength, get_eq hbyte]
    simp
    rfl

theorem firstAlone_occurrences (pre t : Text) (skip : Nat) :
    firstAlone (pre ++ t) (p.occurrences pre.length skip t)
      = .ok (p.scan pre.length (pre.getLast?.any Byte.isWord) skip t) := by
  induction t generalizing pre skip with
  | nil => cases skip <;> rfl
  | cons b rest ih =>
    have hrest : ∀ skip, firstAlone (pre ++ b :: rest) (p.occurrences (pre.length + 1) skip rest)
        = .ok (p.scan (pre.length + 1) (Byte.isWord b) skip rest) := by
      intro skip
      have := ih (pre ++ [b]) skip
      simpa using this
    cases skip with
    | succ skip => exact hrest skip
    | zero =>
      rw [Pattern.occurrences, Pattern.scan]
      cases p.front? (b :: rest) with
      | none => exact hrest 0
      | some front =>
        simp only [firstAlone_cons, hrest]
        split <;> rfl

/-- A piece ends with a word byte only if it has no other bytes. -/
theorem isWord_of_piece (piece : Piece) :
    piece.bytes.all Byte.isWord = piece.bytes.getLast?.any Byte.isWord := by
  cases piece with
  | stray b => simp [Piece.bytes]
  | char c =>
    have hc : Char.ofNat c.toNat = c := Char.ofNat_toNat c
    -- all bytes of a longer character, the last one among them, lie above the word bytes
    have hhigh : ∀ n : Nat, Byte.isWord (UInt8.ofNat (n % 64 + 0x80)) = false := by
      intro n
      cases hword : Byte.isWord (UInt8.ofNat (n % 64 + 0x80)) with
      | false => rfl
      | true =>
        have hlt := (Byte.toNat_of_isWord hword).2
        rw [UInt8.toNat_ofNat', Nat.mod_eq_of_lt (by omega)] at hlt
        omega
    have hvalid : c.toNat.isValidChar := c.valid
    rw [Piece.bytes, ← hc, Utf8.encode_ofNat hvalid]
    split
    · simp
    · split
      · simp [hhigh, -UInt8.ofNat_add]
      · split <;> simp [hhigh, -UInt8.ofNat_add]

theorem bytes_ne_nil (piece : Piece) : piece.bytes ≠ [] := by
  cases piece with
  | stray b => simp [Piece.bytes]
  | char c =>
    refine List.ne_nil_of_length_pos ?_
    rw [Piece.bytes, Utf8.encode, String.length_utf8EncodeChar]
    exact Char.utf8Size_pos c

theorem firstAlone_occurrencesIn (pre : Text) (pieces : List Piece) (skip : Nat) :
    firstAlone (pre ++ Text.ofPieces pieces) (p.occurrencesIn pre.length skip pieces)
      = .ok (p.scanPieces pre.length (pre.getLast?.any Byte.isWord) skip pieces) := by
  induction pieces generalizing pre skip with
  | nil => cases skip <;> rfl
  | cons piece rest ih =>
    have htext : Text.ofPieces (piece :: rest) = piece.bytes ++ Text.ofPieces rest := rfl
    have hlast : (pre ++ piece.bytes).getLast?.any Byte.isWord = piece.bytes.all Byte.isWord := by
      rw [isWord_of_piece, List.getLast?_append_of_ne_nil _ (bytes_ne_nil piece)]
    have hrest : ∀ skip, firstAlone (pre ++ Text.ofPieces (piece :: rest))
        (p.occurrencesIn (pre.length + piece.bytes.length) skip rest)
        = .ok (p.scanPieces (pre.length + piece.bytes.length) (piece.bytes.all Byte.isWord) skip
            rest) := by
      intro skip
      have := ih (pre ++ piece.bytes) skip
      rwa [hlast, List.length_append, List.append_assoc] at this
    cases skip with
    | succ skip => exact hrest skip
    | zero =>
      rw [Pattern.occurrencesIn, Pattern.scanPieces]
      cases p.frontPieces? (piece :: rest) with
      | none => exact hrest 0
      | some front =>
        simp only [firstAlone_cons, hrest]
        split <;> rfl

/-- **No slice fails in looking for keywords.** -/
theorem find?_eq (t : Text) : find? p t = .ok (p.find? t) := by
  rw [find?, Pattern.find?]
  split
  · have := firstAlone_occurrencesIn p [] t.pieces 0
    rwa [Text.ofPieces_pieces] at this
  · exact firstAlone_occurrences p [] t 0

end Checked

namespace Keyword.Pattern

variable {p : Pattern}

/-! ## Occurrences lie in the text -/

theorem taken?_size_le {word : List Char} {pieces : List Piece} {count size : Nat}
    (h : taken? word pieces = some (count, size)) : size ≤ (Text.ofPieces pieces).length := by
  induction word generalizing pieces count size with
  | nil =>
    cases h
    exact Nat.zero_le _
  | cons c word ih =>
    cases pieces with
    | nil => cases h
    | cons piece rest =>
      have hlength : (Text.ofPieces (piece :: rest)).length
          = piece.bytes.length + (Text.ofPieces rest).length := List.length_append
      rw [taken?] at h
      split at h
      · obtain ⟨⟨count', size'⟩, htaken, heq⟩ := Option.map_eq_some_iff.1 h
        obtain ⟨-, rfl⟩ := Prod.mk.inj heq
        have := ih htaken
        omega
      · cases h

theorem scanPieces_bounds (hnominal : p.nominal = false) {pieces : List Piece} {pos skip : Nat}
    {afterWord : Bool} {at_ : Occurrence} (h : p.scanPieces pos afterWord skip pieces = some at_) :
    at_.start ≤ at_.stop ∧ at_.stop ≤ pos + (Text.ofPieces pieces).length := by
  induction pieces generalizing pos skip afterWord with
  | nil => cases skip <;> cases h
  | cons piece rest ih =>
    have hlength : (Text.ofPieces (piece :: rest)).length
        = piece.bytes.length + (Text.ofPieces rest).length := List.length_append
    -- an occurrence further on
    have hlater : ∀ {skip afterWord}, p.scanPieces (pos + piece.bytes.length) afterWord skip rest
        = some at_ → at_.start ≤ at_.stop ∧
          at_.stop ≤ pos + (Text.ofPieces (piece :: rest)).length := by
      intro skip afterWord hrest
      have := ih hrest
      omega
    cases skip with
    | succ skip => exact hlater h
    | zero =>
      rw [scanPieces] at h
      cases hfront : p.frontPieces? (piece :: rest) with
      | none =>
        rw [hfront] at h
        exact hlater h
      | some front =>
        rw [hfront] at h
        obtain ⟨length, size, count, close⟩ := front
        simp only at h
        split at h
        · exact hlater h
        · obtain ⟨w, -, hw⟩ := List.exists_of_findSome?_eq_some hfront
          cases htaken : taken? w.toChars (piece :: rest) with
          | none => simp [htaken] at hw
          | some taken =>
            simp only [htaken] at hw
            obtain ⟨close', -, heq⟩ := Option.map_eq_some_iff.1 hw
            obtain ⟨-, rfl, -⟩ := Prod.mk.inj heq
            have hsize := taken?_size_le htaken
            obtain rfl := Option.some.inj h
            simp only [hnominal, Bool.false_eq_true, if_false]
            omega

/-- What is found lies in the text, unless it counts as longer than it is. -/
theorem find?_bounds (hp : p.nominal = false ∨ p.hasReplacement = false) {t : Text}
    {at_ : Occurrence} (h : p.find? t = some at_) :
    at_.start ≤ at_.stop ∧ at_.stop ≤ t.length := by
  rw [find?] at h
  split at h
  · next hreplacement =>
    rcases hp with hnominal | hnone
    · have := scanPieces_bounds hnominal h
      rwa [Text.ofPieces_pieces, Nat.zero_add] at this
    · rw [hnone] at hreplacement
      cases hreplacement
  · obtain ⟨u, w, v, rfl, -, hstart, hstop⟩ := scan_sound h
    simp only [List.length_append]
    omega

end Keyword.Pattern

end ModifierToggle
