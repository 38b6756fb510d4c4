import ModifierToggle.Proofs.HeaderSearch

set_option autoImplicit false

/-! # The bytes that an edit replaces

An edit gives one line of a span a new text, and replaces only the bytes of it that change. Which
bytes these are is found by comparing the two texts from both ends. Here the replacement is seen to
be one inside the line, to give the new text, and to be the shortest that does
(`Splice.between_turns`, `Splice.between_endsDiffer`, `Splice.Turns.shortest`). Made in the buffer,
at the start of the line, it gives this line its new text and changes nothing else
(`Step.editLine_splices`). -/

namespace ModifierToggle

/-! ## Replacements inside a text -/

/-- Two texts begin and end with different bytes, unless one of them is empty. -/
def Text.EndsDiffer (s t : Text) : Prop :=
  s ≠ [] → t ≠ [] → s.head? ≠ t.head? ∧ s.getLast? ≠ t.getLast?

/-- The replacement is one inside `old`, and turns it into `new`. -/
structure Splice.Turns (s : Splice) (old new : Text) : Prop where
  start_le : s.start ≤ s.stop
  stop_le : s.stop ≤ old.length
  result : old.take s.start ++ s.new ++ old.drop s.stop = new

/-- The shared front of two texts is no longer than one behind which their bytes differ. -/
theorem Text.front_le {front front' s t s' t' : Text} (hs : front ++ s = front' ++ s')
    (ht : front ++ t = front' ++ t') (hne : s.head? ≠ t.head?) : front'.length ≤ front.length := by
  by_contra hlt
  rw [Nat.not_le] at hlt
  -- the byte behind the shorter front is one of the longer
  have hbyte : ∀ {u u' : Text}, front ++ u = front' ++ u' → u.head? = front'[front.length]? := by
    intro u u' hu
    have hget : (front ++ u)[front.length]? = front'[front.length]? := by
      rw [hu, List.getElem?_append_left hlt]
    rwa [List.getElem?_append_right (Nat.le_refl _), Nat.sub_self, ← List.head?_eq_getElem?] at hget
  exact hne ((hbyte hs).trans (hbyte ht).symm)

/-- The same for the end that two texts share. -/
theorem Text.back_le {back back' s t s' t' : Text} (hs : s ++ back = s' ++ back')
    (ht : t ++ back = t' ++ back') (hne : s.getLast? ≠ t.getLast?) :
    back'.length ≤ back.length := by
  have hs' := congrArg List.reverse hs
  have ht' := congrArg List.reverse ht
  rw [List.reverse_append, List.reverse_append] at hs' ht'
  rw [← List.head?_reverse, ← List.head?_reverse] at hne
  simpa using front_le hs' ht' hne

namespace Splice

variable {s s' : Splice} {old new : Text}

/-- What stays, before and behind what is replaced. -/
theorem Turns.exists_parts (h : s.Turns old new) :
    ∃ front mid back, old = front ++ (mid ++ back) ∧ new = front ++ (s.new ++ back) ∧
      mid = old.slice s.start s.stop ∧ mid.length = s.stop - s.start := by
  obtain ⟨hstart, hstop, hresult⟩ := h
  refine ⟨old.take s.start, old.slice s.start s.stop, old.drop s.stop, ?_, ?_, rfl, ?_⟩
  · rw [Text.slice, ← List.append_assoc]
    have hfront : old.take s.start = (old.take s.stop).take s.start := by
      rw [List.take_take, Nat.min_eq_left hstart]
    rw [hfront, List.take_append_drop, List.take_append_drop]
  · rw [← hresult, List.append_assoc]
  · rw [Text.slice, List.length_drop, List.length_take_of_le hstop]

/-- **A replacement by a text with other ends is the shortest** that turns one text into the
    other. -/
theorem Turns.shortest (h : s.Turns old new)
    (hends : Text.EndsDiffer (old.slice s.start s.stop) s.new) (h' : s'.Turns old new) :
    s.stop - s.start ≤ s'.stop - s'.start ∧ s.new.length ≤ s'.new.length := by
  obtain ⟨front, mid, back, hold, hnew, hmid, hlength⟩ := h.exists_parts
  obtain ⟨front', mid', back', hold', hnew', -, hlength'⟩ := h'.exists_parts
  rw [← hmid] at hends
  rw [← hlength, ← hlength']
  have holdLength := congrArg List.length (hold.symm.trans hold')
  have hnewLength := congrArg List.length (hnew.symm.trans hnew')
  simp only [List.length_append] at holdLength hnewLength
  by_cases hmidNil : mid = []
  · rw [hmidNil, List.length_nil] at holdLength ⊢
    omega
  by_cases hnewNil : s.new = []
  · rw [hnewNil, List.length_nil] at hnewLength ⊢
    omega
  obtain ⟨hfirst, hlast⟩ := hends hmidNil hnewNil
  -- neither what stays in front nor what stays behind can be longer
  have hfront : front'.length ≤ front.length := by
    refine Text.front_le (hold.symm.trans hold') (hnew.symm.trans hnew') ?_
    rwa [List.head?_append_of_ne_nil _ hmidNil, List.head?_append_of_ne_nil _ hnewNil]
  have hback : back'.length ≤ back.length := by
    have hold'' : (front ++ mid) ++ back = (front' ++ mid') ++ back' := by
      rw [List.append_assoc, List.append_assoc, ← hold, ← hold']
    have hnew'' : (front ++ s.new) ++ back = (front' ++ s'.new) ++ back' := by
      rw [List.append_assoc, List.append_assoc, ← hnew, ← hnew']
    refine Text.back_le hold'' hnew'' ?_
    rwa [List.getLast?_append_of_ne_nil _ hmidNil, List.getLast?_append_of_ne_nil _ hnewNil]
  omega

end Splice

/-! ## The replacement that is made -/

/-- Behind their common front, two texts do not go on alike. -/
theorem Text.head?_drop_commonFront {s t : Text} (h : s.drop (commonFront s t) ≠ []) :
    (s.drop (commonFront s t)).head? ≠ (t.drop (commonFront s t)).head? := by
  induction s generalizing t with
  | nil => exact absurd List.drop_nil h
  | cons a s ih =>
    cases t with
    | nil => simp [commonFront]
    | cons b t =>
      rw [commonFront] at h ⊢
      split at h
      · next hab =>
        rw [if_pos hab, List.drop_succ_cons, List.drop_succ_cons]
        exact ih h
      · next hab =>
        rw [if_neg hab]
        simpa using hab

/-- What is left of a text behind an offset, less some bytes at its end. -/
theorem Text.slice_length_sub (t : Text) (start tail : Nat) :
    t.slice start (t.length - tail) = (t.drop start).take ((t.drop start).length - tail) := by
  rw [slice, List.drop_take, List.length_drop]
  congr 1
  omega

theorem Text.getLast?_take_commonFront {s t : Text}
    (h : s.take (s.length - commonFront s.reverse t.reverse) ≠ []) :
    (s.take (s.length - commonFront s.reverse t.reverse)).getLast?
      ≠ (t.take (t.length - commonFront s.reverse t.reverse)).getLast? := by
  have hreverse : ∀ (u : Text) (k : Nat), u.take (u.length - k) = (u.reverse.drop k).reverse := by
    intro u k
    rw [List.reverse_drop, List.reverse_reverse, List.length_reverse]
  rw [hreverse] at h ⊢
  rw [hreverse, List.getLast?_reverse, List.getLast?_reverse]
  exact head?_drop_commonFront (by simpa using h)

namespace Splice

theorem between_turns (old new : Text) : (between old new).Turns old new := by
  obtain ⟨front, mid, mid', back, hold, hnew, hbetween⟩ := between_spec old new
  rw [hbetween]
  refine ⟨Nat.le_add_right _ _, by simp [hold], ?_⟩
  rw [hold, hnew, List.append_assoc front mid, List.take_left, ← List.append_assoc front mid,
    ← List.length_append, List.drop_left]

theorem between_endsDiffer (old new : Text) :
    Text.EndsDiffer (old.slice (between old new).start (between old new).stop)
      (between old new).new := by
  intro hgone hnew
  simp only [between, Text.slice_length_sub] at hgone hnew ⊢
  refine ⟨?_, Text.getLast?_take_commonFront hgone⟩
  have hold : old.drop (Text.commonFront old new) ≠ [] := fun hnil => hgone (by simp [hnil])
  have hhead : ∀ {u : Text} {k : Nat}, u.take k ≠ [] → (u.take k).head? = u.head? := by
    intro u k hne
    rw [← List.head?_append_of_ne_nil _ hne, List.take_append_drop]
  rw [hhead hgone, hhead hnew]
  exact Text.head?_drop_commonFront hold

end Splice

/-! ## The line that is taken -/

/-- Line `n` as an edit of a span sees it. -/
def Buffer.codeLineAt (b : Buffer) (span : Span) (n : Nat) : CodeLine :=
  ⟨n, b.line n, b.code span.first n⟩

theorem Buffer.codeLineAt_number (b : Buffer) (span : Span) (n : Nat) :
    (b.codeLineAt span n).number = n := rfl

theorem Buffer.codeLineAt_text (b : Buffer) (span : Span) (n : Nat) :
    (b.codeLineAt span n).text = b.line n := rfl

/-- Line `n` is the first line of the span that is not empty and that the edit takes, and the edit
    makes it `new`. -/
structure LineEdit.TakesLine (r : LineEdit) (b : Buffer) (span : Span) (n : Nat) (new : Text) :
    Prop where
  hasLine : b.HasLine span n
  ne_nil : b.line n ≠ []
  taken : r (b.codeLineAt span n) = some new
  above : ∀ m < n, b.HasLine span m → b.line m = [] ∨ r (b.codeLineAt span m) = none

/-- The code lines of a span are its lines as an edit sees them. -/
theorem Buffer.eq_codeLineAt {b : Buffer} {span : Span} {above below : List CodeLine}
    {l : CodeLine} (h : b.codeLines span = above ++ l :: below) :
    l = b.codeLineAt span l.number := by
  rw [codeLineAt, line_of_lines (codeLines_split h).2.1, code_eq (codeLines_upTo h)]

theorem LineEdit.TakesLine.first?_eq {r : LineEdit} {b : Buffer} {span : Span} {n : Nat}
    {new : Text} (h : r.TakesLine b span n new) :
    r.first? (b.codeLines span) = some (b.codeLineAt span n, new) := by
  obtain ⟨above, l, below, hsplit, rfl⟩ := Buffer.exists_codeLine h.hasLine
  have hl := Buffer.eq_codeLineAt hsplit
  have habove : ∀ l' ∈ above, l'.text = [] ∨ r l' = none := by
    intro l' hl'
    have hlt := Buffer.number_lt_of_mem_above hsplit hl'
    obtain ⟨above', below', rfl⟩ := List.append_of_mem hl'
    rw [List.append_assoc, List.cons_append] at hsplit
    rw [Buffer.eq_codeLineAt hsplit]
    exact h.above l'.number hlt (Buffer.hasLine_of_codeLines hsplit).1
  rw [hsplit, ← hl]
  exact first?_eq_some habove (hl ▸ h.ne_nil) (hl ▸ h.taken)

/-! ## The replacement in the buffer -/

theorem Buffer.replaceRange_nil (b : Buffer) {i : Nat} (h : i ≤ b.text.length) :
    b.replaceRange i i [] = .ok b := by
  unfold replaceRange
  rw [if_neg (by simp only [Bool.or_eq_true, decide_eq_true_eq]; omega), if_pos]
  simp [Text.slice]

/-- Between a text and itself there is nothing to replace. -/
theorem Splice.between_self (t : Text) :
    (between t t).stop = (between t t).start ∧ (between t t).new = [] := by
  have hnothing : (⟨0, 0, []⟩ : Splice).Turns t t := ⟨Nat.le_refl 0, Nat.zero_le _, by simp⟩
  have hturns := between_turns t t
  obtain ⟨hlength, hnew⟩ := hturns.shortest (between_endsDiffer t t) hnothing
  have hle := hturns.start_le
  dsimp only at hlength
  exact ⟨by omega, List.eq_nil_of_length_eq_zero (Nat.le_zero.1 hnew)⟩

namespace Step

/-- Giving a line a new text replaces the bytes that change, and no others. -/
theorem setLine_replaceRange (scope : Option ToggleScope) {w : Work} {l : CodeLine} {new : Text}
    (hl : w.buffer.text.lines[l.number]? = some l.text)
    (herror : (setLine scope l new w).error = none) :
    w.buffer.replaceRange
      ((w.buffer.lineStart l.number + (Splice.between l.text new).start : Nat) : Int)
      ((w.buffer.lineStart l.number + (Splice.between l.text new).stop : Nat) : Int)
      (Splice.between l.text new).new = .ok (setLine scope l new w).work.buffer := by
  unfold setLine at herror ⊢
  split
  · next hsame =>
    -- nothing is replaced, at an offset of the line
    subst hsame
    obtain ⟨hstop, hnew⟩ := Splice.between_self l.text
    have hle := (Splice.between_turns l.text l.text).stop_le
    have hlt := Buffer.lt_lineCount_of_lines hl
    have hlength := w.buffer.length_line hlt
    have hend := w.buffer.lineStart_le_lineEnd hlt
    rw [Buffer.line_of_lines hl] at hlength
    rw [hstop, hnew]
    exact w.buffer.replaceRange_nil (by omega)
  · next hne =>
    rw [if_neg hne] at herror
    dsimp only at herror ⊢
    split at herror
    · cases herror
    · next w' hw' =>
      show _ = Except.ok w'.buffer
      exact Work.replaceRange_buffer hw'

/-- **An edit of a line is the shortest replacement, and the buffer has the new line.** For all
    texts, the replacement between them is one inside the old text and gives the new one; what is
    replaced and what replaces it begin and end with different bytes, unless one of them is empty,
    and no replacement that gives the new text is shorter. Whatever the span, the line edit and the
    buffer, if line `n` is the first that the edit takes, and it makes it `new`, then the step does
    not fail, its buffer is the one with this replacement made at the start of the line, and the
    text of the buffer is the old one with the content of line `n` exchanged for `new`. -/
theorem editLine_splices :
    (∀ old new : Text,
      let s := Splice.between old new
      s.Turns old new ∧ Text.EndsDiffer (old.slice s.start s.stop) s.new ∧
      ∀ s' : Splice, s'.Turns old new →
        s.stop - s.start ≤ s'.stop - s'.start ∧ s.new.length ≤ s'.new.length) ∧
    ∀ (scope : Option ToggleScope) (span : Span) (r : LineEdit) (otherwise : Step) (w : Work)
      (n : Nat) (new : Text), w.writesLeft ≠ some 0 → r.TakesLine w.buffer span n new →
      let s := Splice.between (w.buffer.line n) new
      let base := w.buffer.lineStart n
      let o := editLine scope span r otherwise w
      o.error = none ∧
      w.buffer.replaceRange ((base + s.start : Nat) : Int) ((base + s.stop : Nat) : Int) s.new
        = .ok o.work.buffer ∧
      o.work.buffer.text = w.buffer.withLine n new := by
  refine ⟨fun old new => ?_, fun scope span r otherwise w n new hw htakes => ?_⟩
  · have hturns := Splice.between_turns old new
    have hends := Splice.between_endsDiffer old new
    exact ⟨hturns, hends, fun s' hs' => hturns.shortest hends hs'⟩
  · have hline := Buffer.lines_of_lt htakes.hasLine.lt_count
    have hedit : editLine scope span r otherwise w
        = setLine scope (w.buffer.codeLineAt span n) new w := by
      rw [editLine, htakes.first?_eq]
    obtain ⟨herror, htext⟩ :=
      setLine_withLine scope hw (l := w.buffer.codeLineAt span n) hline new
    have hreplaced := setLine_replaceRange scope (l := w.buffer.codeLineAt span n) hline herror
    rw [Buffer.codeLineAt_number] at htext hreplaced
    rw [Buffer.codeLineAt_text] at hreplaced
    rw [hedit]
    exact ⟨herror, hreplaced, htext⟩

/-- The keyword that is put in begins like the word behind it, so that the first byte of the line
    stays and the rest of the keyword is put in behind it. The comment and the empty line above are
    not taken. -/
theorem editLine_splices_sharedFront :
    let w : Work :=
      { buffer := Buffer.ofText (utf8 "/* function\n*/\n\nfunction f():void;\r\nvar x;") }
    let tok := Token.new .final (utf8 "final") .leadingSpecial .lineStart [.classDecl, .method]
    let r := LineEdit.addToken (Language.actionScript3 {}) tok
    let new := utf8 "final function f():void;"
    r.TakesLine w.buffer ⟨-1, 9⟩ 3 new ∧
    Splice.between (w.buffer.line (3 : Nat)) new = ⟨1, 1, utf8 "inal f"⟩ ∧
    (⟨1, 1, utf8 "inal f"⟩ : Splice).Turns (w.buffer.line (3 : Nat)) new ∧
    (editLine none ⟨-1, 9⟩ r skip w).error = none ∧
    w.buffer.replaceRange 17 17 (utf8 "inal f")
      = .ok (editLine none ⟨-1, 9⟩ r skip w).work.buffer ∧
    (editLine none ⟨-1, 9⟩ r skip w).work.buffer.text
      = utf8 "/* function\n*/\n\nfinal function f():void;\r\nvar x;" := by
  intro w tok r new
  have habove : ∀ m < 3,
      w.buffer.line (m : Nat) = [] ∨ r (w.buffer.codeLineAt ⟨-1, 9⟩ m) = none := by decide
  have htakes : r.TakesLine w.buffer ⟨-1, 9⟩ 3 new :=
    ⟨⟨by decide, by decide, by decide⟩, by decide, by decide, fun m hm _ => habove m hm⟩
  have hsplice : Splice.between (w.buffer.line (3 : Nat)) new = ⟨1, 1, utf8 "inal f"⟩ := by
    decide
  have hstart : w.buffer.lineStart (3 : Nat) = 16 := by decide
  have hwith : w.buffer.withLine 3 new
      = utf8 "/* function\n*/\n\nfinal function f():void;\r\nvar x;" := by decide
  obtain ⟨hturns, -⟩ := editLine_splices.1 (w.buffer.line (3 : Nat)) new
  obtain ⟨herror, hreplaced, htext⟩ :=
    editLine_splices.2 none ⟨-1, 9⟩ r skip w 3 new (by decide) htakes
  rw [hsplice] at hturns hreplaced
  rw [hstart] at hreplaced
  exact ⟨htakes, hsplice, hturns, herror, hreplaced, htext.trans hwith⟩

end Step

end ModifierToggle
