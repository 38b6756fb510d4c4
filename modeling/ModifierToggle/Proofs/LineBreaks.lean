import ModifierToggle.Buffer.Basic
import ModifierToggle.Buffer.LineEnding
import ModifierToggle.Proofs.Lines

set_option autoImplicit false

/-! # Line breaks of every kind

The line ends of a text are rewritten by replacing one after another: pairs of a carriage return and
a newline, carriage returns, newlines. Here a text is cut at its *line breaks* instead, which are
told by the bytes next to each other (`Text.breakAt?`), and no break is seen twice or passed over on
the way: rewriting is to put the parts together again with another ending
(`Text.withLineEndings_eq`). So it does not matter which line ends a text had, and the lines of a
rewritten text are the parts. -/

namespace ModifierToggle

/-- How a line may break off. -/
inductive LineBreak where
  | returnNewline
  | carriageReturn
  | newline
  deriving Repr, DecidableEq

/-- The bytes of a line break. -/
def LineBreak.text : LineBreak → Text
  | .returnNewline => [Byte.carriageReturn, Byte.newline]
  | .carriageReturn => [Byte.carriageReturn]
  | .newline => [Byte.newline]

namespace Text

/-! ## The parts of a text between its line breaks -/

/-- The line break that starts at an offset: a carriage return with a newline behind it, one with
    none behind it, or a newline with no carriage return before it. -/
def breakAt? (t : Text) (i : Nat) : Option LineBreak :=
  if t[i]? == some Byte.carriageReturn then
    if t[i + 1]? == some Byte.newline then some .returnNewline else some .carriageReturn
  else if t[i]? == some Byte.newline && (i == 0 || t[i - 1]? != some Byte.carriageReturn) then
    some .newline
  else none

/-- The line breaks among the `length` offsets from `start` on, with their offsets. -/
def breaksFrom (t : Text) (start length : Nat) : List (Nat × LineBreak) :=
  (List.range' start length).filterMap fun i => (t.breakAt? i).map (i, ·)

/-- What stands from an offset on, cut at line breaks. -/
def partsFrom (t : Text) (start : Nat) : List (Nat × LineBreak) → List Text
  | [] => [t.drop start]
  | (i, e) :: rest => t.slice start i :: partsFrom t (i + e.text.length) rest

/-- The parts of a text between its line breaks. -/
def lineParts (t : Text) : List Text := partsFrom t 0 (t.breaksFrom 0 t.length)

/-- The same parts, read off from the left. -/
def scanParts : Text → List Text
  | [] => [[]]
  | 0x0D :: 0x0A :: rest => [] :: scanParts rest
  | b :: rest =>
    if b == Byte.carriageReturn || b == Byte.newline then [] :: scanParts rest
    else (scanParts rest).modifyHead (b :: ·)

/-- Whether a line break starts at a byte is told by the bytes on either side of it. -/
theorem breakAt?_append (before : Text) (b : UInt8) (rest : Text) :
    breakAt? (before ++ b :: rest) before.length =
      if b == Byte.carriageReturn then
        if rest.head? == some Byte.newline then some .returnNewline else some .carriageReturn
      else if b == Byte.newline && before.getLast? != some Byte.carriageReturn then some .newline
      else none := by
  have hbyte : (before ++ b :: rest)[before.length]? = some b := by simp
  have hnext : (before ++ b :: rest)[before.length + 1]? = rest.head? := by
    rw [List.getElem?_append_right (by omega), Nat.add_sub_cancel_left, List.getElem?_cons_succ,
      List.head?_eq_getElem?]
  have hlast : (before.length == 0
      || (before ++ b :: rest)[before.length - 1]? != some Byte.carriageReturn)
      = (before.getLast? != some Byte.carriageReturn) := by
    cases before with
    | nil => rfl
    | cons c before =>
      rw [List.getLast?_eq_getElem?, List.getElem?_append_left (by simp)]
      rfl
  rw [breakAt?, hbyte, hnext, hlast]
  rfl

theorem breaksFrom_append (before : Text) (b : UInt8) (rest : Text) :
    (before ++ b :: rest).breaksFrom before.length (b :: rest).length
      = ((breakAt? (before ++ b :: rest) before.length).map (before.length, ·)).toList
        ++ (before ++ [b] ++ rest).breaksFrom (before ++ [b]).length rest.length := by
  rw [breaksFrom, List.length_cons, List.range'_succ, List.filterMap_cons, List.append_assoc,
    List.singleton_append, List.length_append, List.length_singleton, breaksFrom]
  cases breakAt? (before ++ b :: rest) before.length <;> rfl

theorem slice_append (before t : Text) (start : Nat) :
    slice (before ++ t) start before.length = before.drop start := by
  rw [slice, List.take_left]

theorem scanParts_ne_nil (t : Text) : scanParts t ≠ [] := by
  fun_induction scanParts t <;> simp_all

theorem modifyHead_self (parts : List Text) : parts.modifyHead (fun part => part) = parts :=
  congrFun List.modifyHead_id parts

/-- The parts behind `before` are those read off from there, if no line break reaches over. -/
theorem partsFrom_eq (t before : Text) (start : Nat) (hstart : start ≤ before.length)
    (hover : t.head? = some Byte.newline → before.getLast? ≠ some Byte.carriageReturn) :
    partsFrom (before ++ t) start ((before ++ t).breaksFrom before.length t.length)
      = (scanParts t).modifyHead (before.drop start ++ ·) := by
  fun_induction scanParts t generalizing before start with
  | case1 => simp [breaksFrom, partsFrom]
  | case2 rest ih =>
    have hfirst : breakAt? (before ++ Byte.carriageReturn :: Byte.newline :: rest) before.length
        = some .returnNewline := by
      rw [breakAt?_append]
      rfl
    -- The newline is the second byte of this break, and starts none itself.
    have hsecond : breakAt? (before ++ [Byte.carriageReturn] ++ Byte.newline :: rest)
        (before ++ [Byte.carriageReturn]).length = none := by
      rw [breakAt?_append, List.getLast?_concat]
      rfl
    have hrest := ih (before ++ [Byte.carriageReturn] ++ [Byte.newline]) (before.length + 2)
      (by simp) (fun _ => by simp; decide)
    rw [breaksFrom_append, hfirst, breaksFrom_append, hsecond]
    show slice _ start before.length :: partsFrom _ (before.length + 2) _ = _
    rw [slice_append, List.modifyHead_cons, List.append_nil]
    congr 1
    simpa [modifyHead_self] using hrest
  | case3 b rest hpair hbreak ih =>
    -- A newline behind a carriage return would make a pair of the two.
    have hnext : b = Byte.carriageReturn → rest.head? ≠ some Byte.newline := by
      rintro rfl hhead
      obtain ⟨rest', rfl⟩ := List.head?_eq_some_iff.1 hhead
      exact hpair rest' rfl rfl
    have hstep : ∃ e, breakAt? (before ++ b :: rest) before.length = some e ∧
        e.text.length = 1 := by
      rw [breakAt?_append]
      by_cases hb : b = Byte.carriageReturn
      · simp [hb, hnext hb, LineBreak.text]
      · have hnewline : b = Byte.newline := by simpa [hb] using hbreak
        subst hnewline
        simpa [LineBreak.text, hb] using hover rfl
    obtain ⟨e, he, hlength⟩ := hstep
    have hrest := ih (before ++ [b]) (before.length + 1) (by simp) fun hhead hlast =>
      hnext (by simpa using hlast) hhead
    rw [breaksFrom_append, he]
    show slice _ start before.length :: partsFrom _ (before.length + e.text.length) _ = _
    rw [slice_append, hlength, List.modifyHead_cons, List.append_nil]
    congr 1
    simpa [modifyHead_self] using hrest
  | case4 b rest hpair hbreak ih =>
    have hnone : breakAt? (before ++ b :: rest) before.length = none := by
      rw [breakAt?_append]
      simp_all
    have hrest := ih (before ++ [b]) start (by simp; omega) (by simp_all)
    rw [breaksFrom_append, hnone, Option.map_none, Option.toList_none, List.nil_append,
      List.modifyHead_modifyHead]
    rw [List.drop_append_of_le_length hstart] at hrest
    simpa [Function.comp_def] using hrest

/-- The parts of a text can be read off from the left. -/
theorem lineParts_eq (t : Text) : t.lineParts = scanParts t := by
  have h := partsFrom_eq t [] 0 (Nat.le_refl 0) (by simp)
  simpa [lineParts, modifyHead_self] using h

/-- There is no line end in the text. -/
def IsPlain (t : Text) : Prop := ∀ b ∈ t, b ≠ Byte.carriageReturn ∧ b ≠ Byte.newline

theorem IsPlain.newline_notMem {part : Text} (h : part.IsPlain) : Byte.newline ∉ part :=
  fun hmem => (h _ hmem).2 rfl

/-- No line end is left in a part. -/
theorem isPlain_of_mem_scanParts {t part : Text} (h : part ∈ scanParts t) : part.IsPlain := by
  fun_induction scanParts t generalizing part with
  | case1 =>
    rw [List.mem_singleton.1 h]
    simp [IsPlain]
  | case2 rest ih =>
    rcases List.mem_cons.1 h with rfl | h
    · simp [IsPlain]
    · exact ih h
  | case3 b rest hpair hbreak ih =>
    rcases List.mem_cons.1 h with rfl | h
    · simp [IsPlain]
    · exact ih h
  | case4 b rest hpair hbreak ih =>
    obtain ⟨first, more, hparts⟩ := List.exists_cons_of_ne_nil (scanParts_ne_nil rest)
    rw [hparts, List.modifyHead_cons] at h
    rcases List.mem_cons.1 h with rfl | h
    · have hfirst := ih (hparts ▸ List.mem_cons_self)
      exact List.forall_mem_cons.2 ⟨by simpa using hbreak, hfirst⟩
    · exact ih (hparts ▸ List.mem_cons_of_mem _ h)

/-! ## Putting parts together -/

theorem join_cons {parts : List Text} (sep part : Text) (h : parts ≠ []) :
    join sep (part :: parts) = part ++ sep ++ join sep parts := by
  obtain ⟨next, rest, rfl⟩ := List.exists_cons_of_ne_nil h
  rfl

theorem join_modifyHead {parts : List Text} (sep front : Text) (h : parts ≠ []) :
    join sep (parts.modifyHead (front ++ ·)) = front ++ join sep parts := by
  obtain ⟨part, rest, rfl⟩ := List.exists_cons_of_ne_nil h
  cases rest with
  | nil => rfl
  | cons next rest => simp [join]

/-! ## Replacing line ends one after another -/

theorem replaceAll_byte (b : UInt8) (new t : Text) :
    replaceAll [b] new t = t.flatMap fun c => if c == b then new else [c] := by
  rw [replaceAll]
  induction t with
  | nil => rfl
  | cons c t ih =>
    rw [replaceAfter, List.flatMap_cons]
    by_cases hc : c = b
    · simpa [hc] using ih
    · simpa [hc, Ne.symm hc] using ih

theorem replaceAll_cons {part : Text} {b : UInt8} {rest : Text}
    (h : part.isPrefixOf (b :: rest) = false) (new : Text) :
    replaceAll part new (b :: rest) = b :: replaceAll part new rest := by
  rw [replaceAll, replaceAfter, h]
  rfl

theorem replaceAll_pair_cons {b : UInt8} {rest : Text}
    (h : ∀ rest', b = Byte.carriageReturn → rest = Byte.newline :: rest' → False) (new : Text) :
    replaceAll [Byte.carriageReturn, Byte.newline] new (b :: rest)
      = b :: replaceAll [Byte.carriageReturn, Byte.newline] new rest := by
  apply replaceAll_cons
  rw [Bool.eq_false_iff, ne_eq, List.isPrefixOf_iff_prefix]
  rintro ⟨rest', hpair⟩
  simp only [List.cons_append, List.nil_append, List.cons.injEq] at hpair
  exact h rest' hpair.1.symm hpair.2.symm

/-- The first two replacements leave one newline for each line break. -/
theorem replaceAll_breaks (t : Text) :
    replaceAll [Byte.carriageReturn] [Byte.newline]
        (replaceAll [Byte.carriageReturn, Byte.newline] [Byte.newline] t)
      = join [Byte.newline] (scanParts t) := by
  rw [replaceAll_byte]
  fun_induction scanParts t with
  | case1 => rfl
  | case2 rest ih =>
    have hpair : replaceAll [Byte.carriageReturn, Byte.newline] [Byte.newline]
        (Byte.carriageReturn :: Byte.newline :: rest)
          = Byte.newline :: replaceAll [Byte.carriageReturn, Byte.newline] [Byte.newline] rest :=
      rfl
    rw [hpair, List.flatMap_cons, ih, join_cons _ _ (scanParts_ne_nil rest)]
    rfl
  | case3 b rest hpair hbreak ih =>
    have hnewline : (if b == Byte.carriageReturn then [Byte.newline] else [b])
        = [Byte.newline] := by
      by_cases hb : b = Byte.carriageReturn
      · simp [hb]
      · simpa [hb] using hbreak
    rw [replaceAll_pair_cons hpair, List.flatMap_cons, ih, join_cons _ _ (scanParts_ne_nil rest),
      hnewline]
    rfl
  | case4 b rest hpair hbreak ih =>
    have hkept : (if b == Byte.carriageReturn then [Byte.newline] else [b]) = [b] := by simp_all
    rw [replaceAll_pair_cons hpair, List.flatMap_cons, ih, hkept]
    exact (join_modifyHead [Byte.newline] [b] (scanParts_ne_nil rest)).symm

theorem flatMap_plain {part : Text} (h : part.IsPlain) (ending : Text) :
    part.flatMap (fun c => if c == Byte.newline then ending else [c]) = part := by
  induction part with
  | nil => rfl
  | cons b part ih =>
    obtain ⟨hb, hpart⟩ := List.forall_mem_cons.1 h
    rw [List.flatMap_cons, ih hpart]
    simp [hb.2]

/-- The last replacement exchanges what stands between the parts. -/
theorem replaceAll_join {parts : List Text} (h : ∀ part ∈ parts, part.IsPlain) (ending : Text) :
    replaceAll [Byte.newline] ending (join [Byte.newline] parts) = join ending parts := by
  rw [replaceAll_byte]
  induction parts with
  | nil => rfl
  | cons part parts ih =>
    obtain ⟨hpart, hparts⟩ := List.forall_mem_cons.1 h
    cases parts with
    | nil => exact flatMap_plain hpart ending
    | cons next rest =>
      rw [join_cons _ _ (List.cons_ne_nil _ _), join_cons _ _ (List.cons_ne_nil _ _),
        List.flatMap_append, List.flatMap_append, flatMap_plain hpart, ih hparts]
      simp

/-- **Rewriting the line ends of a text puts its parts together with another ending.** -/
theorem withLineEndings_eq (ending t : Text) :
    withLineEndings ending t = join ending t.lineParts := by
  have hplain : ∀ part ∈ scanParts t, part.IsPlain := fun _ => isPlain_of_mem_scanParts
  rw [withLineEndings, replaceAll_breaks, lineParts_eq]
  split
  · next hending => rw [beq_iff_eq.1 hending]
  · exact replaceAll_join hplain ending

/-! ## Reading a rewritten text -/

theorem scanParts_plain {part : Text} (h : part.IsPlain) (t : Text) :
    scanParts (part ++ t) = (scanParts t).modifyHead (part ++ ·) := by
  induction part with
  | nil => exact (modifyHead_self _).symm
  | cons b part ih =>
    obtain ⟨hb, hpart⟩ := List.forall_mem_cons.1 h
    rw [List.cons_append, scanParts, ih hpart]
    · simp [hb.1, hb.2, Function.comp_def]
    · exact fun _ hreturn _ => hb.1 hreturn

theorem scanParts_break {e : LineBreak} {t : Text}
    (h : e = .carriageReturn → t.head? ≠ some Byte.newline) :
    scanParts (e.text ++ t) = [] :: scanParts t := by
  cases e with
  | returnNewline => rfl
  | carriageReturn =>
    show scanParts (Byte.carriageReturn :: t) = _
    rw [scanParts]
    · rfl
    · rintro rest - rfl
      exact h rfl rfl
  | newline =>
    show scanParts (Byte.newline :: t) = _
    rw [scanParts]
    · rfl
    · rintro rest ⟨⟩

theorem newline_notMem_join {parts : List Text} (h : ∀ part ∈ parts, part.IsPlain) :
    Byte.newline ∉ join LineBreak.carriageReturn.text parts := by
  induction parts with
  | nil => exact List.not_mem_nil
  | cons part parts ih =>
    obtain ⟨hpart, hparts⟩ := List.forall_mem_cons.1 h
    cases parts with
    | nil => exact hpart.newline_notMem
    | cons next rest =>
      rw [join_cons _ _ (List.cons_ne_nil _ _), List.mem_append, List.mem_append, not_or, not_or]
      exact ⟨⟨hpart.newline_notMem, by decide⟩, ih hparts⟩

/-- The parts are found again between line breaks of one kind. -/
theorem scanParts_join (e : LineBreak) {parts : List Text} (hne : parts ≠ [])
    (h : ∀ part ∈ parts, part.IsPlain) : scanParts (join e.text parts) = parts := by
  induction parts with
  | nil => exact absurd rfl hne
  | cons part parts ih =>
    obtain ⟨hpart, hparts⟩ := List.forall_mem_cons.1 h
    cases parts with
    | nil =>
      have hscan := scanParts_plain hpart []
      rw [List.append_nil] at hscan
      rw [join, hscan, scanParts, List.modifyHead_cons, List.append_nil]
    | cons next rest =>
      have hhead : e = .carriageReturn →
          (join e.text (next :: rest)).head? ≠ some Byte.newline := by
        rintro rfl hhead
        exact newline_notMem_join hparts (List.mem_of_head? hhead)
      rw [join_cons _ _ (List.cons_ne_nil _ _), List.append_assoc, scanParts_plain hpart,
        scanParts_break hhead, ih (List.cons_ne_nil _ _) hparts, List.modifyHead_cons,
        List.append_nil]

theorem lines_of_newline_notMem {part : Text} (h : Byte.newline ∉ part) : part.lines = [part] := by
  rw [lines_eq, List.splitOn_eq_singleton h]
  rfl

theorem lines_append_newline {part : Text} (h : Byte.newline ∉ part) (t : Text) :
    (part ++ Byte.newline :: t).lines = withoutReturn part :: t.lines := by
  rw [lines_eq, lines_eq, List.splitOn_append_cons_self_of_not_mem h,
    contents_cons _ (List.splitOn_ne_nil _ _)]

/-- A line ends before a newline, and before a carriage return with a newline behind it. -/
theorem lines_break {e : LineBreak} (he : e ≠ .carriageReturn) {part : Text} (h : part.IsPlain)
    (t : Text) : (part ++ e.text ++ t).lines = part :: t.lines := by
  cases e with
  | carriageReturn => exact absurd rfl he
  | newline =>
    have hlast : part.getLast? ≠ some Byte.carriageReturn := fun hlast =>
      (h _ (List.mem_of_getLast? hlast)).1 rfl
    have hlines := lines_append_newline h.newline_notMem t
    rw [withoutReturn_eq_self hlast] at hlines
    simpa [LineBreak.text] using hlines
  | returnNewline =>
    have hnone : Byte.newline ∉ part ++ [Byte.carriageReturn] := by
      rw [List.mem_append, not_or]
      exact ⟨h.newline_notMem, by decide⟩
    have hlines := lines_append_newline hnone t
    rw [withoutReturn_append_return] at hlines
    simpa [LineBreak.text] using hlines

/-- The parts are the lines if all line breaks are newlines, or all of them end in one. -/
theorem lines_join {e : LineBreak} (he : e ≠ .carriageReturn) {parts : List Text} (hne : parts ≠ [])
    (h : ∀ part ∈ parts, part.IsPlain) : (join e.text parts).lines = parts := by
  induction parts with
  | nil => exact absurd rfl hne
  | cons part parts ih =>
    obtain ⟨hpart, hparts⟩ := List.forall_mem_cons.1 h
    cases parts with
    | nil => exact lines_of_newline_notMem hpart.newline_notMem
    | cons next rest =>
      rw [join_cons _ _ (List.cons_ne_nil _ _), lines_break he hpart,
        ih (List.cons_ne_nil _ _) hparts]

/-- **Line ends are rewritten whatever they were.** A text is rewritten by putting together, with
    the new ending, its parts between line breaks. What the line ends have been rewritten to before
    does not matter, as long as it is a line break; and with newlines or with pairs of a carriage
    return and a newline, the parts are the lines of a buffer. -/
theorem withLineEndings_exact (t : Text) :
    (∀ ending, withLineEndings ending t = join ending t.lineParts) ∧
    (∀ (e : LineBreak) (ending : Text),
      withLineEndings ending (withLineEndings e.text t) = withLineEndings ending t) ∧
    (Buffer.ofText (withLineEndings LineBreak.returnNewline.text t)).text.lines =
      (Buffer.ofText (withLineEndings LineBreak.newline.text t)).text.lines ∧
    (Buffer.ofText (withLineEndings LineBreak.newline.text t)).text.lines = t.lineParts := by
  have hne : t.lineParts ≠ [] := lineParts_eq t ▸ scanParts_ne_nil t
  have hplain : ∀ part ∈ t.lineParts, part.IsPlain := by
    rw [lineParts_eq]
    exact fun _ => isPlain_of_mem_scanParts
  have hlines : ∀ e : LineBreak, e ≠ .carriageReturn →
      (Buffer.ofText (withLineEndings e.text t)).text.lines = t.lineParts := by
    intro e he
    rw [withLineEndings_eq]
    exact lines_join he hne hplain
  refine ⟨fun ending => withLineEndings_eq ending t, fun e ending => ?_, ?_,
    hlines .newline (by decide)⟩
  · calc withLineEndings ending (withLineEndings e.text t)
        = join ending (scanParts (join e.text t.lineParts)) := by
          rw [withLineEndings_eq, withLineEndings_eq, lineParts_eq (join _ _)]
      _ = join ending t.lineParts := by rw [scanParts_join e hne hplain]
      _ = withLineEndings ending t := (withLineEndings_eq ending t).symm
  · rw [hlines .returnNewline (by decide), hlines .newline (by decide)]

/-- Carriage returns and newlines next to each other: three line breaks, then one, then two. -/
example : lineParts (utf8 "a\r\r\n\nb\nc\n\r") =
    [utf8 "a", [], [], utf8 "b", utf8 "c", [], []] := by
  decide +kernel

end Text

end ModifierToggle
