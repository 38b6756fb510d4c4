import ModifierToggle.Proofs.CodeLines

set_option autoImplicit false

/-! # The lines outside a span

An edit of a line leaves all other lines alone, and the cursor on its line. `Buffer.Reshapes` says
so of a span of lines: the parts of the text between newlines are as many as before, and those
outside the span are what they were. One edit of a line reshapes the span it lies in
(`Step.setLine_reshapes`), reshaping can be repeated, and what it means for the text, its lines and
the cursor follows from the parts (`Reshapes.text_eq`, `Reshapes.line_eq`, `Reshapes.lineAt_eq`). -/

namespace ModifierToggle

/-- The parts of a text between its newlines. -/
def Text.parts (t : Text) : List Text := List.splitOn Byte.newline t

/-! ## Lines and newlines -/

theorem Text.contents_getElem? (parts : List Text) (i : Nat) :
    (contents parts)[i]? = (parts[i]?).map fun part =>
      if i + 1 = parts.length then part else withoutReturn part := by
  induction parts generalizing i with
  | nil => simp [contents]
  | cons part parts ih =>
    cases parts with
    | nil => cases i <;> simp [contents]
    | cons next rest =>
      rw [contents_cons part (by simp)]
      cases i with
      | zero => simp
      | succ i => simpa using ih i

/-- A line starts at or before offset `k` just if there are at least as many newlines before `k` as
    lines above it. -/
theorem LineSpan.start_le_iff_of_scan {t : Text} {start pos n : Nat} {afterReturn : Bool}
    {s : LineSpan} (h : start ≤ pos) (hs : (scan start pos afterReturn t)[n]? = some s) (k : Nat) :
    s.start ≤ k ↔ start ≤ k ∧ n ≤ (t.take (k - pos)).count Byte.newline := by
  induction t generalizing start pos n afterReturn with
  | nil =>
    rw [scan, List.getElem?_singleton] at hs
    split at hs
    · next hn =>
      obtain rfl := Option.some.inj hs
      simp [hn]
    · cases hs
  | cons b t ih =>
    rw [scan] at hs
    by_cases hb : b = Byte.newline
    · rw [if_pos (by simp [hb])] at hs
      cases n with
      | zero =>
        obtain rfl := Option.some.inj hs
        simp
      | succ n =>
        rw [ih (Nat.le_refl _) hs]
        by_cases hnext : pos + 1 ≤ k
        · have hsucc : k - pos = k - (pos + 1) + 1 := by omega
          rw [hsucc, List.take_succ_cons, hb, List.count_cons_self]
          omega
        · have hzero : k - pos = 0 := by omega
          rw [hzero, List.take_zero, List.count_nil]
          omega
    · rw [if_neg (by simpa using hb)] at hs
      rw [ih (by omega) hs]
      by_cases hnext : pos + 1 ≤ k
      · have hsucc : k - pos = k - (pos + 1) + 1 := by omega
        rw [hsucc, List.take_succ_cons, List.count_cons_of_ne hb]
      · have hzero : k - pos = 0 := by omega
        have hzero' : k - (pos + 1) = 0 := by omega
        rw [hzero, hzero', List.take_zero, List.take_zero]

namespace Buffer

variable (b : Buffer)

theorem lineCount_eq : b.lineCount = b.text.parts.length := by
  rw [lineCount, Text.parts, ← Text.contents_length, ← Text.lines_eq, Text.lines, List.length_map]

theorem lineStart_le_iff {n : Nat} (hn : n < b.lineCount) (k : Nat) :
    b.lineStart n ≤ k ↔ n ≤ (b.text.take k).count Byte.newline := by
  have hs : b.text.lineSpans[n]? = some (b.text.lineSpans[n]) := List.getElem?_eq_getElem hn
  have hspan : b.lineSpan n = b.text.lineSpans[n] := by
    rw [lineSpan, if_neg (by omega), Int.toNat_natCast, hs, Option.getD_some]
  rw [lineStart, hspan, LineSpan.start_le_iff_of_scan (Nat.le_refl 0) hs]
  simp

/-- Halving finds the last line that starts at or before an offset, where those lines are the ones
    up to line `m`. -/
theorem bisect_eq {offset : Int} {m : Nat}
    (hm : ∀ n : Nat, n < b.lineCount → ((b.lineStart n : Int) ≤ offset ↔ n ≤ m)) {steps lo hi : Nat}
    (hlo : lo ≤ m) (hhi : m ≤ hi) (hcount : hi < b.lineCount) (hsteps : hi - lo ≤ steps) :
    b.bisect offset steps lo hi = m := by
  induction steps generalizing lo hi with
  | zero =>
    rw [bisect]
    omega
  | succ steps ih =>
    rw [bisect]
    split
    · next hlt =>
      have hmid := hm ((lo + hi + 1) / 2) (by omega)
      dsimp only
      split
      · next hstart => exact ih (hmid.1 hstart) hhi hcount (by omega)
      · next hstart =>
        have hbelow : ¬ (lo + hi + 1) / 2 ≤ m := fun hle => hstart (hmid.2 hle)
        exact ih hlo (by omega) (by omega) (by omega)
    · omega

theorem length_splitOn_newline (t : Text) :
    (List.splitOn Byte.newline t).length = t.count Byte.newline + 1 := by
  induction t with
  | nil => rfl
  | cons c t ih =>
    rw [List.splitOn_cons_eq_if_modifyHead]
    split
    · next hc =>
      rw [List.length_cons, ih, beq_iff_eq.1 hc, List.count_cons_self]
    · next hc =>
      rw [List.length_modifyHead, ih, List.count_cons_of_ne (by simpa using hc)]

theorem lineCount_eq_count : b.lineCount = b.text.count Byte.newline + 1 := by
  rw [lineCount_eq, Text.parts, length_splitOn_newline]

/-- The number of a line is the number of newlines before it. -/
theorem lineAt_eq (k : Nat) : b.lineAt k = (b.text.take k).count Byte.newline := by
  rw [lineAt]
  split
  · next hk =>
    obtain rfl : k = 0 := by omega
    rw [List.take_zero, List.count_nil]
  · have hle : (b.text.take k).count Byte.newline ≤ b.text.count Byte.newline :=
      (List.take_sublist k b.text).count_le _
    have hcount := b.lineCount_eq_count
    refine b.bisect_eq (fun n hn => ?_) (Nat.zero_le _) (by omega) (by omega) (by omega)
    rw [Int.ofNat_le, b.lineStart_le_iff hn]

theorem line_eq (n : Int) :
    b.line n = if n < 0 then [] else (b.text.lines[n.toNat]?).getD [] := by
  rw [line, lineStart, lineEnd, lineSpan]
  split
  · rfl
  · rw [Text.lines, List.getElem?_map]
    cases b.text.lineSpans[n.toNat]? with
    | none => simp [Text.slice]
    | some s => rfl

variable {b}

theorem line_of_lines {n : Nat} {x : Text} (h : b.text.lines[n]? = some x) : b.line n = x := by
  rw [line_eq, if_neg (by omega), Int.toNat_natCast, h]
  rfl

theorem lt_lineCount_of_lines {n : Nat} {x : Text} (h : b.text.lines[n]? = some x) :
    n < b.lineCount := by
  have hlt := (List.getElem?_eq_some_iff.1 h).1
  rwa [Text.lines, List.length_map] at hlt

theorem lines_of_lt {n : Nat} (h : n < b.lineCount) : b.text.lines[n]? = some (b.line n) := by
  have hlt : n < b.text.lines.length := by rwa [Text.lines, List.length_map]
  have hget := List.getElem?_eq_getElem hlt
  rw [line_of_lines hget, hget]

end Buffer

/-! ## Reshaping a span -/

/-- The buffers differ in the lines from `first` to `last` at most, which are as many as before. If
    the last of them has a carriage return in its line end, it keeps it. The cursor stays on its
    line. -/
structure Buffer.Reshapes (first last : Nat) (b b' : Buffer) : Prop where
  length_eq : b'.text.parts.length = b.text.parts.length
  outside : ∀ i, i < first ∨ last < i → b'.text.parts[i]? = b.text.parts[i]?
  ending : ∀ x, last + 1 < b.text.parts.length →
    b.text.parts[last]? = some (x ++ [Byte.carriageReturn]) →
    ∃ y, b'.text.parts[last]? = some (y ++ [Byte.carriageReturn])
  cursor : (b'.text.take b'.cursor).count Byte.newline = (b.text.take b.cursor).count Byte.newline

namespace Buffer.Reshapes

variable {first last : Nat} {b b' b'' : Buffer}

theorem refl (b : Buffer) : b.Reshapes first last b :=
  ⟨rfl, fun _ _ => rfl, fun x _ hx => ⟨x, hx⟩, rfl⟩

theorem trans (h : Reshapes first last b b') (h' : Reshapes first last b' b'') :
    Reshapes first last b b'' := by
  refine ⟨h'.length_eq.trans h.length_eq, fun i hi => (h'.outside i hi).trans (h.outside i hi),
    fun x hlast hx => ?_, h'.cursor.trans h.cursor⟩
  obtain ⟨y, hy⟩ := h.ending x hlast hx
  exact h'.ending y (h.length_eq ▸ hlast) hy

/-- Only the text and the cursor count. -/
theorem of_eq (htext : b'.text = b.text) (hcursor : b'.cursor = b.cursor) :
    Reshapes first last b b' := by
  refine ⟨?_, ?_, ?_, ?_⟩ <;> rw [htext]
  · exact fun _ _ => rfl
  · exact fun x _ hx => ⟨x, hx⟩
  · rw [hcursor]

end Buffer.Reshapes

/-- The cursor stays on its line when a part without newlines is exchanged for another. -/
theorem Buffer.splice_cursor {b : Buffer} {front old back new : Text}
    (h : b.text = front ++ old ++ back) (hold : Byte.newline ∉ old) (hnew : Byte.newline ∉ new) :
    ((front ++ new ++ back).take (b.splice front.length old.length new).cursor).count Byte.newline
      = (b.text.take b.cursor).count Byte.newline := by
  have htext := splice_text new h
  have hcursor : (b.splice front.length old.length new).cursor
      = min (if front.length + old.length ≤ b.cursor then b.cursor - old.length + new.length
          else if front.length < b.cursor then front.length + new.length else b.cursor)
        (front ++ new ++ back).length := by
    rw [← htext]
    rfl
  rw [hcursor, ← List.take_eq_take_min, h]
  split
  · next hbehind =>
    -- the cursor moves along with the text it stands in
    obtain ⟨d, hd⟩ := Nat.exists_eq_add_of_le hbehind
    have hmoved : b.cursor - old.length + new.length = (front ++ new).length + d := by
      rw [List.length_append]
      omega
    rw [hmoved, hd, ← List.length_append, List.take_length_add_append,
      List.take_length_add_append]
    simp only [List.count_append, List.count_eq_zero_of_not_mem hold,
      List.count_eq_zero_of_not_mem hnew]
  · next hnotBehind =>
    split
    · next hinside =>
      -- the cursor moves behind what is new
      have hpart : Byte.newline ∉ old.take (b.cursor - front.length) :=
        fun hmem => hold (List.mem_of_mem_take hmem)
      rw [← List.length_append, List.take_left, List.append_assoc, List.take_append,
        List.take_of_length_le (Nat.le_of_lt hinside),
        List.take_append_of_le_length (by omega)]
      simp only [List.count_append, List.count_eq_zero_of_not_mem hpart,
        List.count_eq_zero_of_not_mem hnew]
    · rw [List.append_assoc, List.append_assoc, List.take_append_of_le_length (by omega),
        List.take_append_of_le_length (by omega)]

/-- A text whose parts differ in one line of the span, with the same line end. -/
theorem Text.parts_fill {above below : List Text} {ending x y : Text}
    (hfree : ∀ part ∈ above ++ (x ++ ending) :: below, Byte.newline ∉ part)
    (hending : IsEnding ending) (hy : Byte.newline ∉ y) :
    ((LineSite.ofParts above ending below).fill y).parts = above ++ (y ++ ending) :: below :=
  LineSite.splitOn_fill (fun part hpart => hfree part (List.mem_append_left _ hpart))
    (fun part hpart => hfree part (List.mem_append_right _ (List.mem_cons_of_mem _ hpart)))
    (hending.newline_notMem hy)

section

variable {first last : Nat} {b b' : Buffer} {above below : List Text} {ending x y : Text}

/-- Exchanging one line of a span reshapes the span. -/
theorem Buffer.Reshapes.of_parts (hparts : b.text.parts = above ++ (x ++ ending) :: below)
    (hparts' : b'.text.parts = above ++ (y ++ ending) :: below) (hfirst : first ≤ above.length)
    (hlast : above.length ≤ last) (hending : Text.IsEnding ending)
    (hx : Text.contentOf (x ++ ending) below = x)
    (hcursor : (b'.text.take b'.cursor).count Byte.newline
      = (b.text.take b.cursor).count Byte.newline) : b.Reshapes first last b' := by
  have hother : ∀ i, i ≠ above.length → b'.text.parts[i]? = b.text.parts[i]? := by
    intro i hi
    rw [hparts, hparts']
    rcases Nat.lt_or_gt_of_ne hi with hlt | hgt
    · rw [List.getElem?_append_left hlt, List.getElem?_append_left hlt]
    · obtain ⟨d, hd⟩ := Nat.exists_eq_add_of_lt hgt
      have hsucc : i - above.length = d + 1 := by omega
      rw [List.getElem?_append_right (by omega), List.getElem?_append_right (by omega), hsucc,
        List.getElem?_cons_succ, List.getElem?_cons_succ]
  refine ⟨by simp [hparts, hparts'], fun i hi => hother i (by omega), fun z hlength hz => ?_,
    hcursor⟩
  by_cases hself : last = above.length
  · -- the line end has the carriage return, since the line does not
    subst hself
    obtain rfl | rfl := hending
    · have hz' : x = z ++ [Byte.carriageReturn] := by simpa [hparts] using hz
      have hbelow : below ≠ [] := by
        rintro rfl
        simp [hparts] at hlength
      rw [Text.contentOf, if_neg hbelow, List.append_nil, hz', Text.withoutReturn_append_return]
        at hx
      exact absurd (congrArg List.length hx) (by simp)
    · exact ⟨y, by simp [hparts']⟩
  · exact ⟨z, (hother last hself).trans hz⟩

end

/-- The part of the text that a code line stands for. -/
theorem Buffer.exists_parts {b : Buffer} {span : Span} {l : CodeLine} (hl : l ∈ b.codeLines span) :
    ∃ above ending below, b.text.parts = above ++ (l.text ++ ending) :: below ∧
      above.length = l.number ∧ Text.IsEnding ending ∧
      Text.contentOf (l.text ++ ending) below = l.text ∧
      b.text = (LineSite.ofParts above ending below).fill l.text ∧
      b.lineStart l.number = (LineSite.ofParts above ending below).before.length := by
  obtain ⟨linesAbove, linesBelow, hsplit⟩ := List.append_of_mem hl
  obtain ⟨-, hline, -, -⟩ := codeLines_split hsplit
  obtain ⟨above, ending, below, hparts, hlength, hending, hcontent⟩ := Text.exists_part hline
  refine ⟨above, ending, below, hparts, hlength, hending, hcontent, ?_, ?_⟩
  · rw [LineSite.ofParts_fill, ← hparts, List.intercalate_splitOn]
  · rw [lineStart, lineSpan, if_neg (by omega), Int.toNat_natCast, Text.lineSpans_eq, hparts,
      ← hlength, Text.extents_getElem?, Nat.zero_add]
    rfl

theorem Buffer.newline_notMem_text {b : Buffer} {span : Span} {l : CodeLine}
    (hl : l ∈ b.codeLines span) : Byte.newline ∉ l.text := by
  obtain ⟨above, ending, below, hparts, -⟩ := exists_parts hl
  intro hmem
  have hpart : l.text ++ ending ∈ b.text.parts := by simp [hparts]
  exact Text.newline_notMem_of_mem_splitOn hpart (List.mem_append_left _ hmem)

/-- **Giving a line of a span a new text reshapes the span,** also when the edit is refused. -/
theorem Step.setLine_reshapes (scope : Option ToggleScope) {span : Span} {l : CodeLine} {w : Work}
    (hl : l ∈ w.buffer.codeLines span) {new : Text} (hnew : Byte.newline ∉ new) :
    w.buffer.Reshapes span.first.toNat span.last.toNat
      (setLine scope l new w).work.buffer := by
  obtain ⟨linesAbove, linesBelow, hsplit⟩ := List.append_of_mem hl
  obtain ⟨hnumber, -, hlast, -⟩ := Buffer.codeLines_split hsplit
  obtain ⟨above, ending, below, hparts, hlength, hending, hcontent, hfill, hstart⟩ :=
    Buffer.exists_parts hl
  have hfree : ∀ part ∈ above ++ (l.text ++ ending) :: below, Byte.newline ∉ part :=
    fun part hpart => Text.newline_notMem_of_mem_splitOn (hparts ▸ hpart)
  have htext := Buffer.newline_notMem_text hl
  unfold setLine
  split
  · exact .refl _
  · obtain ⟨front, mid, mid', back, hx, hy, hbetween⟩ := Splice.between_spec l.text new
    have hmiddle : w.buffer.text
        = ((LineSite.ofParts above ending below).before ++ front) ++ mid
          ++ (back ++ (LineSite.ofParts above ending below).after) := by
      rw [hfill, LineSite.fill, hx]
      simp only [List.append_assoc]
    obtain ⟨b', hb', hb'text, hb'cursor⟩ := Buffer.replaceRange_middle mid' hmiddle
    simp only [hstart, hbetween]
    split
    · exact .refl _
    · next w' hw' =>
      have hbuffer := Work.replaceRange_buffer hw'
      rw [List.length_append, Nat.add_assoc] at hb'
      obtain rfl : b' = w'.buffer := Except.ok.inj (hb'.symm.trans hbuffer)
      show w.buffer.Reshapes _ _ w'.buffer
      rcases hb'cursor with hsame | hcursor
      · rw [hsame]
        exact .refl _
      · have hfill' : w'.buffer.text = (LineSite.ofParts above ending below).fill new := by
          rw [hb'text, LineSite.fill, hy]
          simp only [List.append_assoc]
        refine .of_parts hparts (hfill' ▸ Text.parts_fill hfree hending hnew) (by omega) (by omega)
          hending hcontent ?_
        rw [hb'text, hcursor]
        refine Buffer.splice_cursor hmiddle (fun hmem => htext ?_) fun hmem => hnew ?_
        · simp [hx, hmem]
        · simp [hy, hmem]

/-! ## What reshaping leaves alone -/

theorem Text.count_newline_flatMap {parts : List Text} (h : ∀ part ∈ parts, Byte.newline ∉ part) :
    (parts.flatMap (· ++ [Byte.newline])).count Byte.newline = parts.length := by
  induction parts with
  | nil => rfl
  | cons part parts ih =>
    rw [List.flatMap_cons, List.count_append, List.count_append,
      List.count_eq_zero_of_not_mem (h part List.mem_cons_self),
      ih fun p hp => h p (List.mem_cons_of_mem _ hp)]
    simp only [List.count_singleton_self, List.length_cons]
    omega

namespace Buffer

section

variable {b : Buffer} {above below : List Text} {part : Text}

theorem lineSpan_of_parts (h : b.text.parts = above ++ part :: below) :
    b.lineSpan above.length
      = ⟨(above.flatMap (· ++ [Byte.newline])).length,
          (above.flatMap (· ++ [Byte.newline])).length
            + (Text.contentOf part below).length⟩ := by
  rw [lineSpan, if_neg (by omega), Int.toNat_natCast, Text.lineSpans_eq]
  rw [Text.parts] at h
  rw [h, Text.extents_getElem?, Nat.zero_add]
  rfl

theorem lineSpan_of_length_le {n : Nat} (h : b.text.parts.length ≤ n) :
    b.lineSpan n = ⟨b.text.length, b.text.length⟩ := by
  rw [← lineCount_eq, lineCount] at h
  rw [lineSpan, if_neg (by omega), Int.toNat_natCast, List.getElem?_eq_none h]
  rfl

/-- Lines before the first one start where the first one does. -/
theorem lineStart_toNat (b : Buffer) (n : Int) : b.lineStart n = b.lineStart n.toNat := by
  by_cases hn : n < 0
  · obtain ⟨part, below, hparts⟩ : ∃ part below, b.text.parts = [] ++ part :: below :=
      List.exists_cons_of_ne_nil (List.splitOn_ne_nil Byte.newline b.text)
    have hfirst : b.lineSpan (0 : Nat) = ⟨0, (Text.contentOf part below).length⟩ := by
      simpa using lineSpan_of_parts hparts
    have hzero : n.toNat = 0 := by omega
    rw [lineStart, lineStart, hzero, hfirst, lineSpan, if_pos hn]
  · rw [Int.toNat_of_nonneg (by omega)]

theorem text_of_parts (h : b.text.parts = above ++ part :: below) :
    b.text = above.flatMap (· ++ [Byte.newline]) ++ part ++ below.flatMap (Byte.newline :: ·) := by
  rw [← Text.intercalate_eq, ← h, Text.parts, List.intercalate_splitOn]

/-- Some lines of a text, up to the end of the last of them, have a newline less than lines. -/
theorem count_newline_of_parts {mid : List Text} {x ending : Text}
    (h : b.text.parts = (above ++ mid) ++ (x ++ ending) :: below) :
    (mid.flatMap (· ++ [Byte.newline]) ++ x).count Byte.newline = mid.length := by
  have hfree : ∀ p ∈ b.text.parts, Byte.newline ∉ p :=
    fun p hp => Text.newline_notMem_of_mem_splitOn hp
  rw [h] at hfree
  have hx : Byte.newline ∉ x := fun hmem =>
    hfree (x ++ ending) (by simp) (List.mem_append_left _ hmem)
  rw [List.count_append, Text.count_newline_flatMap fun p hp => hfree p (by simp [hp]),
    List.count_eq_zero_of_not_mem hx]
  rfl

end

namespace Reshapes

variable {first last : Nat} {b b' : Buffer}

theorem split_parts (parts : List Text) {i j : Nat} (hij : i ≤ j) (hj : j < parts.length) :
    parts = (parts.take i ++ (parts.take j).drop i) ++ parts.get ⟨j, hj⟩ :: parts.drop (j + 1) := by
  have htake : (parts.take j).take i = parts.take i := by rw [List.take_take, Nat.min_eq_left hij]
  rw [← htake, List.take_append_drop, List.get_eq_getElem, List.getElem_cons_drop hj,
    List.take_append_drop]

/-- The parts before and after a span that is there. -/
theorem exists_split (h : b.Reshapes first last b') (hle : first ≤ last)
    (hlt : first < b.text.parts.length) :
    ∃ above mid mid' part part' below, b.text.parts = (above ++ mid) ++ part :: below ∧
      b'.text.parts = (above ++ mid') ++ part' :: below ∧ above.length = first ∧
      mid'.length = mid.length ∧
      ((above ++ mid).length = last ∨ below = [] ∧ b.text.parts.length ≤ last) := by
  obtain ⟨j, hj⟩ : ∃ j, j = min last (b.text.parts.length - 1) := ⟨_, rfl⟩
  have hlength := h.length_eq
  have habove : b'.text.parts.take first = b.text.parts.take first := by
    refine List.ext_getElem? fun i => ?_
    rw [List.getElem?_take, List.getElem?_take]
    split
    · next hi => exact h.outside i (Or.inl hi)
    · rfl
  have hbelow : b'.text.parts.drop (j + 1) = b.text.parts.drop (j + 1) := by
    refine List.ext_getElem? fun i => ?_
    rw [List.getElem?_drop, List.getElem?_drop]
    by_cases hi : last < j + 1 + i
    · exact h.outside _ (Or.inr hi)
    · rw [List.getElem?_eq_none (by omega), List.getElem?_eq_none (by omega)]
  refine ⟨b.text.parts.take first, (b.text.parts.take j).drop first,
    (b'.text.parts.take j).drop first, b.text.parts.get ⟨j, by omega⟩,
    b'.text.parts.get ⟨j, by omega⟩, b.text.parts.drop (j + 1), ?_, ?_, ?_, ?_, ?_⟩
  · exact split_parts _ (by omega) _
  · rw [← habove, ← hbelow]
    exact split_parts _ (by omega) _
  · rw [List.length_take]
    omega
  · rw [List.length_drop, List.length_drop, List.length_take, List.length_take, hlength]
  · rw [List.length_append, List.length_drop, List.length_take, List.length_take,
      List.drop_eq_nil_iff]
    omega

/-- The line end of the last line of the span stays. -/
theorem exists_ending (h : b.Reshapes first last b') {above above' below : List Text}
    {part part' : Text} (hparts : b.text.parts = above ++ part :: below)
    (hparts' : b'.text.parts = above' ++ part' :: below) (hlength : above'.length = above.length)
    (hlast : above.length = last ∨ below = []) :
    ∃ x x' ending, part = x ++ ending ∧ part' = x' ++ ending ∧
      Text.contentOf (x ++ ending) below = x := by
  by_cases hbelow : below = []
  · exact ⟨part, part', [], by simp, by simp, by simp [Text.contentOf, hbelow]⟩
  · obtain rfl : above.length = last := hlast.resolve_right hbelow
    rcases Text.withoutReturn_cases part with hreturn | ⟨-, hnone⟩
    · have hinner : above.length + 1 < b.text.parts.length := by
        have hpos := List.length_pos_iff.2 hbelow
        rw [hparts, List.length_append, List.length_cons]
        omega
      obtain ⟨y, hy⟩ := h.ending (Text.withoutReturn part) hinner (by
        rw [← hreturn, hparts]
        simp)
      have hpart' : part' = y ++ [Byte.carriageReturn] := by
        rw [hparts', ← hlength] at hy
        simpa using hy
      exact ⟨_, y, [Byte.carriageReturn], hreturn, hpart', by
        rw [Text.contentOf, if_neg hbelow, Text.withoutReturn_append_return]⟩
    · exact ⟨part, part', [], by simp, by simp, by
        rw [Text.contentOf, if_neg hbelow, List.append_nil, Text.withoutReturn_eq_self hnone]⟩

/-- **Only the span changes in the text,** and it has as many newlines as before. -/
theorem text_eq (h : b.Reshapes first last b') (hle : first ≤ last) :
    ∃ mid, b'.text = b.text.take (b.lineStart first) ++ mid ++ b.text.drop (b.lineEnd last) ∧
      mid.count Byte.newline
        = (b.text.slice (b.lineStart first) (b.lineEnd last)).count Byte.newline := by
  by_cases hlt : first < b.text.parts.length
  · obtain ⟨above, mid, mid', part, part', below, hparts, hparts', hfirst, hmid, hlast⟩ :=
      h.exists_split hle hlt
    obtain ⟨x, x', ending, rfl, rfl, hcontent⟩ :=
      h.exists_ending hparts hparts' (by simp [hmid]) (hlast.imp id And.left)
    have htext := text_of_parts hparts
    have htext' := text_of_parts hparts'
    have hstart : b.lineStart first = (above.flatMap (· ++ [Byte.newline])).length := by
      obtain ⟨next, rest, hnext⟩ : ∃ next rest, mid ++ (x ++ ending) :: below = next :: rest :=
        List.exists_cons_of_ne_nil (by simp)
      rw [List.append_assoc, hnext] at hparts
      rw [lineStart, ← hfirst, lineSpan_of_parts hparts]
    have hend : b.lineEnd last = (above.flatMap (· ++ [Byte.newline])
        ++ (mid.flatMap (· ++ [Byte.newline]) ++ x)).length := by
      rcases hlast with hlast | ⟨rfl, hbehind⟩
      · rw [lineEnd, ← hlast, lineSpan_of_parts hparts, hcontent]
        simp [List.flatMap_append, Nat.add_assoc]
      · have hnil : ending = [] := by simpa [Text.contentOf] using hcontent
        rw [lineEnd, lineSpan_of_length_le hbehind]
        simp [htext, hnil, List.flatMap_append]
    have hcut : b.text = above.flatMap (· ++ [Byte.newline])
        ++ (mid.flatMap (· ++ [Byte.newline]) ++ x)
        ++ (ending ++ below.flatMap (Byte.newline :: ·)) := by
      rw [htext, List.flatMap_append]
      simp only [List.append_assoc]
    refine ⟨mid'.flatMap (· ++ [Byte.newline]) ++ x', ?_, ?_⟩
    · rw [hstart, hend, hcut, List.drop_left, List.append_assoc (above.flatMap _), List.take_left,
        htext', List.flatMap_append]
      simp only [List.append_assoc]
    · rw [hstart, hend, Text.slice, hcut, List.take_left, List.drop_left,
        count_newline_of_parts hparts, count_newline_of_parts hparts', hmid]
  · have hsame : b'.text = b.text := by
      have hparts : b'.text.parts = b.text.parts := by
        refine List.ext_getElem? fun i => ?_
        by_cases hi : i < first
        · exact h.outside i (Or.inl hi)
        · have hlength := h.length_eq
          rw [List.getElem?_eq_none (by omega), List.getElem?_eq_none (by omega)]
      have hjoin := congrArg [Byte.newline].intercalate hparts
      rwa [Text.parts, Text.parts, List.intercalate_splitOn, List.intercalate_splitOn] at hjoin
    have hstart : b.lineStart first = b.text.length := by
      rw [lineStart, lineSpan_of_length_le (Nat.le_of_not_lt hlt)]
    have hend : b.lineEnd last = b.text.length := by
      rw [lineEnd, lineSpan_of_length_le (by omega)]
    refine ⟨[], ?_, ?_⟩
    · simp [hsame, hstart, hend]
    · simp [Text.slice, hstart, hend]

theorem lineCount_eq (h : b.Reshapes first last b') : b'.lineCount = b.lineCount := by
  rw [Buffer.lineCount_eq, Buffer.lineCount_eq, h.length_eq]

/-- Lines outside the span are what they were. -/
theorem line_eq (h : b.Reshapes first last b') {n : Int} (hn : n < first ∨ last < n) :
    b'.line n = b.line n := by
  rw [Buffer.line_eq, Buffer.line_eq]
  split
  · rfl
  · have hpart : b'.text.parts[n.toNat]? = b.text.parts[n.toNat]? := h.outside _ (by omega)
    have hlength := h.length_eq
    rw [Text.parts, Text.parts] at hpart hlength
    rw [Text.lines_eq, Text.lines_eq, Text.contents_getElem?, Text.contents_getElem?, hpart,
      hlength]

/-- The cursor is on the line it was on. -/
theorem lineAt_eq (h : b.Reshapes first last b') :
    b'.lineAt b'.cursor = b.lineAt b.cursor := by
  rw [Buffer.lineAt_eq, Buffer.lineAt_eq, h.cursor]

end Reshapes

end Buffer

end ModifierToggle
