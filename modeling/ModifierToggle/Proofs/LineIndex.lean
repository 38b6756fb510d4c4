import ModifierToggle.Buffer.Indexed
import ModifierToggle.Proofs.History
import ModifierToggle.Proofs.LineFrame

set_option autoImplicit false

/-! # The line index

Where lines start and end is looked up by number, and the number of a line by halving the lines that
come into question. Here both are read against the text as a whole: lines and what ends them, taken
in turn, make up the text, and the number of a line is the number of newlines before it.

One line is enough for one step: what stands before the next line is what stands before this one,
the line itself, and its line break (`Buffer.take_lineStart_succ`).

An indexed buffer answers from an index that an edit could leave behind. It is in step with the text
if it is the one that the text would be given anew (`IndexedBuffer.InStep`). Every operation keeps
it so, and does to the buffer below what it does without an index; by induction, both hold of whole
runs (`IndexedBuffer.run_inStep`, `IndexedBuffer.run_toBuffer`). An index in step answers as the
text does, which makes it exact after every run (`IndexedBuffer.lineIndex_exact`). -/

namespace ModifierToggle.Buffer

/-- What ends a line: all that stands between the line and the start of the next one. -/
def lineBreak (b : Buffer) (n : Nat) : Text :=
  b.text.slice (b.lineEnd n) (b.lineStart (n + 1 : Nat))

/-- The lines above line `n`, each with its line break. -/
def textAbove (b : Buffer) (n : Nat) : Text :=
  (List.range n).flatMap fun (k : Nat) => b.line k ++ b.lineBreak k

variable (b : Buffer)

/-! ## One line -/

theorem exists_parts_of_lt {n : Nat} (h : n < b.lineCount) :
    ∃ above part below, b.text.parts = above ++ part :: below ∧ above.length = n := by
  rw [lineCount_eq] at h
  refine ⟨b.text.parts.take n, b.text.parts[n], b.text.parts.drop (n + 1), ?_,
    List.length_take_of_le (Nat.le_of_lt h)⟩
  rw [List.getElem_cons_drop h, List.take_append_drop]

section

variable {b} {above below : List Text} {part : Text}

theorem lineStart_of_above (h : b.text.parts = above ++ part :: below) :
    b.lineStart above.length = (above.flatMap (· ++ [Byte.newline])).length := by
  rw [lineStart, lineSpan_of_parts h]

theorem lineEnd_of_above (h : b.text.parts = above ++ part :: below) :
    b.lineEnd above.length
      = (above.flatMap (· ++ [Byte.newline])).length + (Text.contentOf part below).length := by
  rw [lineEnd, lineSpan_of_parts h]

/-- The line that is last ends with the text, and the text behind it is empty. -/
theorem lineStart_succ_of_last (h : b.text.parts = above ++ [part]) :
    b.lineStart (above.length + 1 : Nat) = b.text.length := by
  rw [lineStart, lineSpan_of_length_le (by simp [h])]

theorem lineStart_succ_of_above (h : b.text.parts = above ++ part :: below) (hbelow : below ≠ []) :
    b.lineStart (above.length + 1 : Nat)
      = (above.flatMap (· ++ [Byte.newline])).length + (part.length + 1) := by
  obtain ⟨next, rest, rfl⟩ := List.exists_cons_of_ne_nil hbelow
  have hnext : b.text.parts = (above ++ [part]) ++ next :: rest := by simp [h]
  have hstart := lineStart_of_above hnext
  rw [List.length_append, List.length_singleton] at hstart
  rw [hstart]
  simp

theorem line_of_above (h : b.text.parts = above ++ part :: below) :
    b.line above.length = Text.contentOf part below := by
  rw [line_eq, if_neg (by omega), Int.toNat_natCast, Text.lines_eq, ← Text.parts, h,
    Text.contents_append, List.getElem?_append_right (by simp)]
  simp

end

/-- The last line has no line break. -/
theorem lineBreak_last {n : Nat} (h : n + 1 = b.lineCount) : b.lineBreak n = [] := by
  obtain ⟨above, part, below, hparts, rfl⟩ := b.exists_parts_of_lt (by omega : n < b.lineCount)
  obtain rfl : below = [] := by
    rw [lineCount_eq, hparts] at h
    simpa using h
  have htext := text_of_parts hparts
  rw [lineBreak, lineStart_succ_of_last hparts, lineEnd_of_above hparts, Text.slice,
    List.take_length, List.drop_eq_nil_iff, htext]
  simp [Text.contentOf]

/-- A line break is a newline, with the carriage return before it where the line has one there. -/
theorem lineBreak_cases {n : Nat} (h : n + 1 < b.lineCount) :
    b.lineBreak n = [Byte.carriageReturn, Byte.newline] ∨
      b.lineBreak n = [Byte.newline] ∧ (b.line n).getLast? ≠ some Byte.carriageReturn := by
  obtain ⟨above, part, below, hparts, rfl⟩ := b.exists_parts_of_lt (by omega : n < b.lineCount)
  have hbelow : below ≠ [] := by
    rintro rfl
    rw [lineCount_eq, hparts] at h
    simp at h
  obtain ⟨next, rest, rfl⟩ := List.exists_cons_of_ne_nil hbelow
  have htext := text_of_parts hparts
  have hcontent : Text.contentOf part (next :: rest) = part.withoutReturn := rfl
  -- up to the next line, the text is the lines above, the part and its newline
  have hbreak : b.lineBreak above.length
      = (part ++ [Byte.newline]).drop part.withoutReturn.length := by
    rw [lineBreak, lineStart_succ_of_above hparts hbelow, lineEnd_of_above hparts, hcontent,
      Text.slice, htext, List.append_assoc, List.take_length_add_append,
      List.drop_length_add_append, List.flatMap_cons, List.take_length_add_append,
      List.cons_append, List.take_succ_cons, List.take_zero]
  rw [hbreak, line_of_above hparts, hcontent]
  rcases part.withoutReturn_cases with hreturn | ⟨hself, hlast⟩
  · left
    have hpart : part ++ [Byte.newline]
        = part.withoutReturn ++ [Byte.carriageReturn, Byte.newline] := by
      conv_lhs => rw [hreturn]
      simp
    rw [hpart, List.drop_left]
  · right
    rw [← hself, List.drop_left]
    exact ⟨rfl, hlast⟩

theorem newline_notMem_line {n : Nat} (h : n < b.lineCount) : Byte.newline ∉ b.line n := by
  obtain ⟨above, part, below, hparts, rfl⟩ := b.exists_parts_of_lt h
  have hpart : Byte.newline ∉ part :=
    Text.newline_notMem_of_mem_splitOn (t := b.text) (by rw [← Text.parts, hparts]; simp)
  rw [line_of_above hparts, Text.contentOf]
  split
  · exact hpart
  · rcases part.withoutReturn_cases with hreturn | ⟨hself, -⟩
    · exact fun hmem => hpart (hreturn ▸ List.mem_append_left _ hmem)
    · rwa [← hself]

/-- A line lies in the text, and the next one starts behind it. -/
theorem lineStart_le_lineEnd {n : Nat} (h : n < b.lineCount) :
    b.lineStart n ≤ b.lineEnd n ∧ b.lineEnd n ≤ b.lineStart (n + 1 : Nat) ∧
      b.lineStart (n + 1 : Nat) ≤ b.text.length := by
  obtain ⟨above, part, below, hparts, rfl⟩ := b.exists_parts_of_lt h
  have htext := congrArg List.length (text_of_parts hparts)
  have hcontent : (Text.contentOf part below).length ≤ part.length := by
    rw [Text.contentOf, Text.withoutReturn]
    split
    · exact Nat.le_refl _
    · split
      · rw [List.length_dropLast]
        exact Nat.sub_le _ _
      · exact Nat.le_refl _
  simp only [List.length_append] at htext
  rw [lineStart_of_above hparts, lineEnd_of_above hparts]
  refine ⟨Nat.le_add_right _ _, ?_⟩
  cases below with
  | nil =>
    rw [lineStart_succ_of_last hparts]
    omega
  | cons next rest =>
    rw [lineStart_succ_of_above hparts (by simp)]
    simp only [List.flatMap_cons, List.cons_append, List.length_cons] at htext
    omega

/-! ## All lines -/

theorem lineStart_zero : b.lineStart (0 : Nat) = 0 := by
  have hcount := b.lineCount_eq_count
  have hle := (b.lineStart_le_iff (by omega : 0 < b.lineCount) 0).2 (Nat.zero_le _)
  omega

/-- What stands before the next line. -/
theorem take_lineStart_succ {n : Nat} (h : n < b.lineCount) :
    b.text.take (b.lineStart (n + 1 : Nat))
      = b.text.take (b.lineStart n) ++ (b.line n ++ b.lineBreak n) := by
  obtain ⟨hstart, hend, -⟩ := b.lineStart_le_lineEnd h
  have hslice : ∀ {i j : Nat}, i ≤ j → b.text.take j = b.text.take i ++ b.text.slice i j := by
    intro i j hij
    have hsplit := List.take_append_drop i (b.text.take j)
    rwa [List.take_take, Nat.min_eq_left hij, eq_comm] at hsplit
  rw [hslice hend, hslice hstart, List.append_assoc]
  rfl

/-- The lines above a line, with their line breaks, are what stands before it. -/
theorem textAbove_eq {n : Nat} (h : n ≤ b.lineCount) :
    b.textAbove n = b.text.take (b.lineStart n) := by
  induction n with
  | zero => rw [lineStart_zero, List.take_zero]; rfl
  | succ n ih =>
    rw [take_lineStart_succ b h, ← ih (Nat.le_of_succ_le h), textAbove, List.range_succ,
      List.flatMap_append, List.flatMap_singleton]
    rfl

theorem length_textAbove {n : Nat} (h : n < b.lineCount) :
    (b.textAbove n).length = b.lineStart n := by
  obtain ⟨hstart, hend, hnext⟩ := b.lineStart_le_lineEnd h
  rw [textAbove_eq b (Nat.le_of_lt h), List.length_take]
  omega

theorem length_line {n : Nat} (h : n < b.lineCount) :
    b.lineStart n + (b.line n).length = b.lineEnd n := by
  obtain ⟨hstart, hend, hnext⟩ := b.lineStart_le_lineEnd h
  rw [line, Text.slice, List.length_drop, List.length_take]
  omega

/-- All lines with their line breaks are the text. -/
theorem textAbove_lineCount : b.textAbove b.lineCount = b.text := by
  have hlast : b.lineStart (b.lineCount : Nat) = b.text.length := by
    rw [lineStart, lineSpan_of_length_le (Nat.le_of_eq b.lineCount_eq.symm)]
  rw [textAbove_eq b (Nat.le_refl _), hlast, List.take_length]

/-- The number of a line is the number of newlines before it, for offsets in the text or not. -/
theorem lineAt_eq_count (offset : Int) :
    b.lineAt offset
      = (b.text.take (max 0 (min offset b.text.length)).toNat).count Byte.newline := by
  rcases Int.le_total offset 0 with hneg | hpos
  · rw [lineAt, if_pos hneg, show (max 0 (min offset b.text.length)).toNat = 0 by omega,
      List.take_zero, List.count_nil]
  · obtain ⟨k, rfl⟩ := Int.eq_ofNat_of_zero_le hpos
    have hclamp : (max 0 (min (k : Int) b.text.length)).toNat = min k b.text.length := by omega
    rw [hclamp, ← List.take_eq_take_min]
    exact b.lineAt_eq k

end ModifierToggle.Buffer

namespace ModifierToggle.IndexedBuffer

/-! ## The index and the buffer below it -/

/-- The index is the one that the text would be given anew. -/
def InStep (b : IndexedBuffer) : Prop := b = index b.toBuffer

theorem inStep_index (b : Buffer) : (index b).InStep := rfl

theorem InStep.starts_eq {b : IndexedBuffer} (h : b.InStep) :
    b.starts = b.text.lineSpans.map (·.start) :=
  congrArg IndexedBuffer.starts h

theorem InStep.ends_eq {b : IndexedBuffer} (h : b.InStep) :
    b.ends = b.text.lineSpans.map (·.stop) :=
  congrArg IndexedBuffer.ends h

/-- What leaves the text alone may leave the index alone. -/
theorem InStep.of_text_eq {b : IndexedBuffer} (h : b.InStep) {b' : Buffer}
    (htext : b'.text = b.text) : InStep { b with toBuffer := b' } := by
  rw [InStep, index, htext, ← h.starts_eq, ← h.ends_eq]

/-! ## One operation -/

section

variable (b : IndexedBuffer)

theorem foldl_toBuffer {f : IndexedBuffer → Edit → IndexedBuffer} {g : Buffer → Edit → Buffer}
    (hf : ∀ b e, (f b e).toBuffer = g b.toBuffer e) (es : List Edit) :
    (es.foldl f b).toBuffer = es.foldl g b.toBuffer := by
  induction es generalizing b with
  | nil => rfl
  | cons e es ih => rw [List.foldl_cons, ih, hf, List.foldl_cons]

theorem replaceRange_toBuffer (start stop : Int) (new : Text) :
    (b.replaceRange start stop new).map (·.toBuffer) = b.toBuffer.replaceRange start stop new := by
  rw [replaceRange, Buffer.replaceRange]
  split
  · rfl
  · simp only
    split
    · rfl
    · exact congrArg Except.ok (apply_ite IndexedBuffer.toBuffer _ _ _)

theorem undo?_toBuffer : b.undo?.map (·.toBuffer) = b.toBuffer.undo? := by
  rw [undo?, Buffer.undo?]
  split
  · rfl
  · cases b.undoable with
    | nil => rfl
    | cons group earlier =>
      simp only [Option.map_some]
      rw [← foldl_toBuffer (f := revert) b (fun _ _ => rfl) group.reverse]

theorem redo?_toBuffer : b.redo?.map (·.toBuffer) = b.toBuffer.redo? := by
  rw [redo?, Buffer.redo?]
  split
  · rfl
  · cases b.redoable with
    | nil => rfl
    | cons group later =>
      simp only [Option.map_some]
      rw [← foldl_toBuffer (f := reapply) b (fun _ _ => rfl) group]

end

theorem endGroup_text (b : Buffer) : b.endGroup.text = b.text := by
  fun_cases Buffer.endGroup b <;> rfl

theorem foldl_inStep {f : IndexedBuffer → Edit → IndexedBuffer} (hf : ∀ b e, (f b e).InStep)
    {b : IndexedBuffer} (h : b.InStep) (es : List Edit) : (es.foldl f b).InStep := by
  induction es generalizing b with
  | nil => exact h
  | cons e es ih => exact ih (hf b e)

section

variable {b b' : IndexedBuffer} (h : b.InStep)

include h

theorem replaceRange_inStep {start stop : Int} {new : Text}
    (hr : b.replaceRange start stop new = .ok b') : b'.InStep := by
  unfold replaceRange at hr
  split at hr
  · cases hr
  · simp only at hr
    split at hr
    · obtain rfl := Except.ok.inj hr
      exact h
    · obtain rfl := Except.ok.inj hr
      -- the history is written behind the splice, and the index has no part in it
      split <;> exact (inStep_index _).of_text_eq rfl

theorem undo?_inStep (hu : b.undo? = some b') : b'.InStep := by
  unfold undo? at hu
  split at hu
  · cases hu
  · split at hu
    · cases hu
    · obtain rfl := Option.some.inj hu
      exact (foldl_inStep (fun _ _ => inStep_index _) h _).of_text_eq rfl

theorem redo?_inStep (hr : b.redo? = some b') : b'.InStep := by
  unfold redo? at hr
  split at hr
  · cases hr
  · split at hr
    · cases hr
    · obtain rfl := Option.some.inj hr
      exact (foldl_inStep (fun _ _ => inStep_index _) h _).of_text_eq rfl

end

/-! ## Runs -/

/-- Do something to a buffer. What is refused changes nothing. -/
def perform (b : IndexedBuffer) : Buffer.Operation → IndexedBuffer
  | .replaceRange start stop new =>
    match b.replaceRange start stop new with
    | .ok b' => b'
    | .error _ => b
  | .moveCursor offset => b.moveCursor offset
  | .beginGroup => b.beginGroup
  | .endGroup => b.endGroup
  | .undo => b.undo?.getD b
  | .redo => b.redo?.getD b

/-- Do one thing after the other. -/
def run (b : IndexedBuffer) (ops : List Buffer.Operation) : IndexedBuffer := ops.foldl perform b

/-- An operation does to the buffer below what it does without an index. -/
theorem perform_toBuffer (b : IndexedBuffer) (op : Buffer.Operation) :
    (b.perform op).toBuffer = b.toBuffer.perform op := by
  cases op with
  | replaceRange start stop new =>
    rw [perform, Buffer.perform, ← replaceRange_toBuffer]
    cases b.replaceRange start stop new <;> rfl
  | moveCursor offset => rfl
  | beginGroup => rfl
  | endGroup => rfl
  | undo =>
    rw [perform, Buffer.perform, ← undo?_toBuffer]
    cases b.undo? <;> rfl
  | redo =>
    rw [perform, Buffer.perform, ← redo?_toBuffer]
    cases b.redo? <;> rfl

/-- An operation keeps the index in step. -/
theorem perform_inStep {b : IndexedBuffer} (h : b.InStep) (op : Buffer.Operation) :
    (b.perform op).InStep := by
  cases op with
  | replaceRange start stop new =>
    rw [perform]
    split
    · next b' hb' => exact replaceRange_inStep h hb'
    · exact h
  | moveCursor offset => exact h.of_text_eq rfl
  | beginGroup => exact h.of_text_eq rfl
  | endGroup => exact h.of_text_eq (endGroup_text _)
  | undo =>
    cases hu : b.undo? with
    | none => simpa [perform, hu] using h
    | some u => simpa [perform, hu] using undo?_inStep h hu
  | redo =>
    cases hr : b.redo? with
    | none => simpa [perform, hr] using h
    | some r => simpa [perform, hr] using redo?_inStep h hr

/-- **A run on an indexed buffer is a run on the buffer below.** -/
theorem run_toBuffer (b : IndexedBuffer) (ops : List Buffer.Operation) :
    (b.run ops).toBuffer = b.toBuffer.run ops := by
  induction ops generalizing b with
  | nil => rfl
  | cons op ops ih => exact (ih (b.perform op)).trans (congrArg (·.run ops) (b.perform_toBuffer op))

/-- **The index is in step with the text after every run.** -/
theorem run_inStep {b : IndexedBuffer} (h : b.InStep) (ops : List Buffer.Operation) :
    (b.run ops).InStep := by
  induction ops generalizing b with
  | nil => exact h
  | cons op ops ih => exact ih (perform_inStep h op)

/-! ## Reading an index that is in step -/

/-- What ends a line: all that stands between the line and the start of the next one. -/
def lineBreak (b : IndexedBuffer) (n : Nat) : Text :=
  b.text.slice (b.lineEnd n) (b.lineStart (n + 1 : Nat))

/-- The lines above line `n`, each with its line break. -/
def textAbove (b : IndexedBuffer) (n : Nat) : Text :=
  (List.range n).flatMap fun (k : Nat) => b.line k ++ b.lineBreak k

namespace InStep

variable {b : IndexedBuffer} (h : b.InStep)

include h

theorem lineCount_eq : b.lineCount = b.toBuffer.lineCount := by
  rw [lineCount, h.starts_eq, List.length_map, Buffer.lineCount]

theorem lineStart_eq (n : Int) : b.lineStart n = b.toBuffer.lineStart n := by
  rw [lineStart, Buffer.lineStart, Buffer.lineSpan, h.starts_eq, List.getElem?_map]
  split
  · rfl
  · cases b.text.lineSpans[n.toNat]? <;> rfl

theorem lineEnd_eq (n : Int) : b.lineEnd n = b.toBuffer.lineEnd n := by
  rw [lineEnd, Buffer.lineEnd, Buffer.lineSpan, h.ends_eq, List.getElem?_map]
  split
  · rfl
  · cases b.text.lineSpans[n.toNat]? <;> rfl

theorem line_eq (n : Int) : b.line n = b.toBuffer.line n := by
  rw [line, lineStart_eq h, lineEnd_eq h, lineCount_eq h]
  split
  · next hout =>
    rw [Buffer.line_eq]
    split
    · rfl
    · next hneg =>
      have hlines : b.text.lines.length = b.toBuffer.lineCount := by
        rw [Text.lines, List.length_map, Buffer.lineCount]
      rw [List.getElem?_eq_none (by simp at hout; omega)]
      rfl
  · rfl

theorem lineBreak_eq (n : Nat) : b.lineBreak n = b.toBuffer.lineBreak n := by
  rw [lineBreak, lineEnd_eq h, lineStart_eq h, Buffer.lineBreak]

theorem textAbove_eq (n : Nat) : b.textAbove n = b.toBuffer.textAbove n := by
  simp only [textAbove, Buffer.textAbove, line_eq h, lineBreak_eq h]

theorem bisect_eq (offset : Int) (steps lo hi : Nat) :
    b.bisect offset steps lo hi = b.toBuffer.bisect offset steps lo hi := by
  induction steps generalizing lo hi with
  | zero => rfl
  | succ steps ih => simp only [bisect, Buffer.bisect, lineStart_eq h, ih]

theorem lineAt_eq (offset : Int) : b.lineAt offset = b.toBuffer.lineAt offset := by
  rw [lineAt, Buffer.lineAt, bisect_eq h, lineCount_eq h]

end InStep

/-- **The line index is exact.** Whatever is done to a buffer, its text and history are what they
    would be without an index, and what the index says holds of that text. The lines and their line
    breaks, taken in turn, are the text. A line break is a newline, together with a carriage return
    before it, and the last line has none; no line has a newline in it. Lines start and end where
    they stand in the text, there is one more of them than there are newlines, and the line at an
    offset is the number of newlines before it, also for offsets outside the text. -/
theorem lineIndex_exact (t : Text) (ops : List Buffer.Operation) :
    let b := (ofText t).run ops
    b.toBuffer = (Buffer.ofText t).run ops ∧
    b.text = b.textAbove b.lineCount ∧
    (∀ n, n + 1 < b.lineCount →
      b.lineBreak n = [Byte.carriageReturn, Byte.newline] ∨
        b.lineBreak n = [Byte.newline] ∧ (b.line n).getLast? ≠ some Byte.carriageReturn) ∧
    (∀ n, n + 1 = b.lineCount → b.lineBreak n = []) ∧
    (∀ n < b.lineCount,
      Byte.newline ∉ b.line n ∧
      b.lineStart n = (b.textAbove n).length ∧
      b.lineEnd n = b.lineStart n + (b.line n).length) ∧
    b.lineCount = b.text.count Byte.newline + 1 ∧
    ∀ offset : Int, b.lineAt offset
      = (b.text.take (max 0 (min offset b.text.length)).toNat).count Byte.newline := by
  intro b
  have h : b.InStep := run_inStep (inStep_index _) ops
  simp only [h.lineCount_eq, h.lineStart_eq, h.lineEnd_eq, h.line_eq, h.lineBreak_eq,
    h.textAbove_eq, h.lineAt_eq]
  exact ⟨run_toBuffer _ ops, b.textAbove_lineCount.symm, fun n => b.lineBreak_cases,
    fun n => b.lineBreak_last, fun n hn => ⟨b.newline_notMem_line hn,
      (b.length_textAbove hn).symm, (b.length_line hn).symm⟩,
    b.lineCount_eq_count, b.lineAt_eq_count⟩

/-- Of two carriage returns before a newline, one is in the line; one that no newline follows is in
    its line, too. -/
theorem lineIndex_exact_returns :
    let b := (ofText (utf8 "a\r\r\n\rb\r")).run [.replaceRange 0 1 (utf8 "\n"), .undo, .redo]
    b.lineCount = 3 ∧ b.starts = [0, 1, 4] ∧ b.ends = [0, 2, 7] ∧ b.line 1 = utf8 "\r" ∧
    b.lineBreak 1 = [Byte.carriageReturn, Byte.newline] ∧ b.text = b.textAbove 3 ∧
    b.lineAt 99 = 2 := by
  have h := lineIndex_exact (utf8 "a\r\r\n\rb\r") [.replaceRange 0 1 (utf8 "\n"), .undo, .redo]
  refine ⟨by decide, by decide, by decide, by decide,
    (h.2.2.1 1 (by decide)).resolve_right (by decide), h.2.1, ?_⟩
  exact (h.2.2.2.2.2.2 99).trans (by decide)

end ModifierToggle.IndexedBuffer
