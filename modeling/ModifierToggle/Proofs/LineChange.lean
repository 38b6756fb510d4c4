import ModifierToggle.Proofs.Lines
import ModifierToggle.Proofs.Recording

set_option autoImplicit false

/-! # Changing one line of a span

An editing step changes one line, and of that line only the bytes that differ. Here the two are put
together with the theory of lines: the bytes that differ are a middle part of both texts
(`Splice.between_spec`), so replacing them puts the new text of the line where the old one was
(`Step.setLine_rewrites`), and which line that is depends on the code lines of the span alone
(`Step.Rewrites.editLine`). -/

namespace ModifierToggle

/-! ## The part of a line that changes -/

theorem Text.take_commonFront (s t : Text) :
    s.take (commonFront s t) = t.take (commonFront s t) := by
  induction s generalizing t with
  | nil => simp [commonFront]
  | cons a s ih =>
    cases t with
    | nil => simp [commonFront]
    | cons b t =>
      rw [commonFront]
      split
      · next hab =>
          rw [beq_iff_eq.1 hab, List.take_succ_cons, List.take_succ_cons, ih t]
      · simp

theorem Text.commonFront_le_left (s t : Text) : commonFront s t ≤ s.length := by
  induction s generalizing t with
  | nil => simp [commonFront]
  | cons a s ih =>
    cases t with
    | nil => simp [commonFront]
    | cons b t =>
      rw [commonFront]
      split
      · simpa using ih t
      · simp

/-- Two texts begin alike. -/
theorem Text.commonFront_spec (s t : Text) :
    ∃ front s' t', s = front ++ s' ∧ t = front ++ t' ∧ front.length = commonFront s t := by
  refine ⟨s.take (commonFront s t), s.drop (commonFront s t), t.drop (commonFront s t), ?_, ?_, ?_⟩
  · rw [List.take_append_drop]
  · rw [take_commonFront, List.take_append_drop]
  · exact List.length_take_of_le (commonFront_le_left s t)

/-- **What changes is a middle part** of the old text and of the new one, with the same text before
    it and behind it. -/
theorem Splice.between_spec (old new : Text) :
    ∃ front mid mid' back, old = front ++ mid ++ back ∧ new = front ++ mid' ++ back ∧
      Splice.between old new = ⟨front.length, front.length + mid.length, mid'⟩ := by
  obtain ⟨front, old', new', hold, hnew, hfront⟩ := Text.commonFront_spec old new
  -- the common back is the common front of the rest read backwards
  obtain ⟨back, oldRest, newRest, hold', hnew', hback⟩ :=
    Text.commonFront_spec old'.reverse new'.reverse
  have hold'' : old' = oldRest.reverse ++ back.reverse := by
    rw [← List.reverse_append, ← hold', List.reverse_reverse]
  have hnew'' : new' = newRest.reverse ++ back.reverse := by
    rw [← List.reverse_append, ← hnew', List.reverse_reverse]
  have hdropOld : old.drop front.length = old' := by rw [hold, List.drop_left]
  have hdropNew : new.drop front.length = new' := by rw [hnew, List.drop_left]
  refine ⟨front, oldRest.reverse, newRest.reverse, back.reverse, ?_, ?_, ?_⟩
  · rw [hold, hold'', List.append_assoc]
  · rw [hnew, hnew'', List.append_assoc]
  · rw [between, ← hfront]
    simp only [hdropOld, hdropNew, ← hback, Text.slice]
    have hstop : old.length - back.length = front.length + oldRest.reverse.length := by
      rw [hold, hold'']
      simp only [List.length_append, List.length_reverse]
      omega
    have htake : new.take (new.length - back.length) = front ++ newRest.reverse := by
      rw [hnew, hnew'', ← List.append_assoc]
      refine List.take_left' ?_
      simp only [List.length_append, List.length_reverse]
      omega
    rw [hstop, htake, List.drop_left]

/-! ## Giving a line a new text -/

/-- A range of the text can be replaced, and the cursor goes where the splice puts it. -/
theorem Buffer.replaceRange_middle {b : Buffer} {front old back : Text} (new : Text)
    (h : b.text = front ++ old ++ back) :
    ∃ b', b.replaceRange (front.length : Nat) ((front.length + old.length : Nat) : Int) new
        = .ok b' ∧
      b'.text = front ++ new ++ back ∧
      (b' = b ∨ b'.cursor = (b.splice front.length old.length new).cursor) := by
  have hlen : front.length + old.length ≤ b.text.length := by simp [h]
  have hslice : b.text.slice front.length (front.length + old.length) = old := by
    rw [h, Text.slice, ← List.length_append, List.take_left, List.drop_left]
  unfold replaceRange
  rw [if_neg (by simp only [Bool.or_eq_true, decide_eq_true_eq]; omega)]
  simp only [Int.toNat_natCast, hslice]
  split
  · next hsame => exact ⟨b, rfl, hsame ▸ h, Or.inl rfl⟩
  · refine ⟨_, rfl, ?_, Or.inr ?_⟩
    · split
      · exact splice_text new h
      · exact splice_text new h
    · split
      · rfl
      · rfl

/-- A replacement that is still accepted is made as in the buffer. -/
theorem Work.replaceRange_of_buffer {w : Work} {start stop : Int} {new : Text} {b' : Buffer}
    (hw : w.writesLeft ≠ some 0) (h : w.buffer.replaceRange start stop new = .ok b') :
    ∃ w', w.replaceRange start stop new = .ok w' ∧ w'.buffer = b' := by
  unfold Work.replaceRange
  split
  · next hzero => exact absurd hzero hw
  all_goals
    rw [h]
    exact ⟨_, rfl, rfl⟩

theorem Work.replaceRange_writesLeft {w w' : Work} {start stop : Int} {new : Text}
    (hw : w.writesLeft = none) (h : w.replaceRange start stop new = .ok w') :
    w'.writesLeft = none := by
  simp only [Work.replaceRange, hw] at h
  cases hb : w.buffer.replaceRange start stop new with
  | error _ => rw [hb] at h; cases h
  | ok b =>
    rw [hb] at h
    cases h
    rfl

/-- The line in the gap is the line with the number of lines above it. -/
theorem LineSite.Fits.lineSpan {s : LineSite} {x : Text} (hfits : s.Fits x) {b : Buffer}
    (ht : b.text = s.fill x) :
    b.lineSpan (s.above.length : Nat) = ⟨s.before.length, s.before.length + x.length⟩ := by
  rw [Buffer.lineSpan, if_neg (by omega), Int.toNat_natCast, ht, hfits.span]
  rfl

/-- The step gives the line in the gap the text `y` in place of `x`, and does not fail, as long as
    replacements are accepted. -/
def Step.Rewrites (f : Step) (s : LineSite) (x y : Text) : Prop :=
  ∀ w : Work, w.writesLeft = none → w.buffer.text = s.fill x →
    (f w).error = none ∧ (f w).work.writesLeft = none ∧ (f w).work.buffer.text = s.fill y

/-- Unless the replacement is refused, the line in the gap has its new text. -/
theorem Step.setLine_fill (scope : Option ToggleScope) {s : LineSite} {x : Text}
    (hfits : s.Fits x) (code y : Text) {w : Work} (hw : w.writesLeft ≠ some 0)
    (ht : w.buffer.text = s.fill x) :
    (setLine scope ⟨s.above.length, x, code⟩ y w).error = none ∧
      (setLine scope ⟨s.above.length, x, code⟩ y w).work.buffer.text = s.fill y := by
  unfold setLine
  split
  · next hsame => exact ⟨rfl, hsame ▸ ht⟩
  · obtain ⟨front, mid, mid', back, hx, hy, hbetween⟩ := Splice.between_spec x y
    have hstart : w.buffer.lineStart (s.above.length : Nat) = s.before.length := by
      rw [Buffer.lineStart, hfits.lineSpan ht]
    have htext : w.buffer.text = (s.before ++ front) ++ mid ++ (back ++ s.after) := by
      rw [ht, LineSite.fill, hx]
      simp only [List.append_assoc]
    obtain ⟨b', hb', hb'text, -⟩ := Buffer.replaceRange_middle mid' htext
    obtain ⟨w', hw', rfl⟩ : ∃ w', w.replaceRange _ _ mid' = .ok w' ∧ w'.buffer = b' :=
      Work.replaceRange_of_buffer hw hb'
    rw [List.length_append, Nat.add_assoc] at hw'
    simp only [hstart, hbetween, hw']
    refine ⟨trivial, ?_⟩
    show w'.buffer.text = s.fill y
    rw [hb'text, LineSite.fill, hy]
    simp only [List.append_assoc]

theorem Step.setLine_writesLeft (scope : Option ToggleScope) (l : CodeLine) (y : Text) {w : Work}
    (hw : w.writesLeft = none) : (setLine scope l y w).work.writesLeft = none := by
  unfold setLine
  split
  · exact hw
  · dsimp only
    split
    · exact hw
    · next w' hw' =>
      show w'.writesLeft = none
      exact Work.replaceRange_writesLeft hw hw'

theorem Step.setLine_rewrites (scope : Option ToggleScope) {s : LineSite} {x : Text}
    (hfits : s.Fits x) (code y : Text) :
    (setLine scope ⟨s.above.length, x, code⟩ y).Rewrites s x y := by
  intro w hw ht
  obtain ⟨herror, htext⟩ := setLine_fill scope hfits code y (by simp [hw]) ht
  exact ⟨herror, setLine_writesLeft scope _ y hw, htext⟩

namespace Step.Rewrites

variable {f g : Step} {s : LineSite} {x y z : Text}

theorem skip : Step.skip.Rewrites s x x := fun _ hw ht => ⟨rfl, hw, ht⟩

theorem report (scope : Option ToggleScope) (e : Event) : (Step.report scope e).Rewrites s x x :=
  fun _ hw ht => ⟨rfl, hw, ht⟩

theorem andThen (hf : f.Rewrites s x y) (hg : g.Rewrites s y z) :
    (f.andThen g).Rewrites s x z := by
  intro w hw ht
  obtain ⟨herror, hw', ht'⟩ := hf w hw ht
  simp only [Step.andThen, herror, Option.isSome_none, Bool.false_eq_true, if_false]
  exact hg _ hw' ht'

theorem mapError (hf : f.Rewrites s x y) (context : EditError → EditError) :
    (f.mapError context).Rewrites s x y := by
  intro w hw ht
  obtain ⟨herror, hw', ht'⟩ := hf w hw ht
  exact ⟨by simp [Step.mapError, herror], hw', ht'⟩

end Step.Rewrites

/-! ## Leaving a line alone -/

namespace Step

/-- A step that leaves the buffer as it was, unless it changes the text. -/
def Frugal (f : Step) : Prop :=
  ∀ w : Work, (f w).work.buffer.text = w.buffer.text → (f w).work.buffer = w.buffer

theorem frugal_of_buffer_eq {f : Step} (h : ∀ w, (f w).work.buffer = w.buffer) : f.Frugal :=
  fun w _ => h w

theorem setLine_frugal (scope : Option ToggleScope) (l : CodeLine) (new : Text) :
    (setLine scope l new).Frugal := by
  intro w
  unfold setLine
  split
  · exact fun _ => rfl
  · dsimp only
    split
    · exact fun _ => rfl
    · next w' hw' =>
      intro htext
      rcases Buffer.replaceRange_cases (Work.replaceRange_buffer hw') with hbuffer | ⟨e, he⟩
      · exact hbuffer
      · exact absurd htext he.text_ne

theorem editLine_frugal (scope : Option ToggleScope) (span : Span) (r : LineEdit)
    {otherwise : Step} (ho : otherwise.Frugal) : (editLine scope span r otherwise).Frugal := by
  intro w
  unfold editLine
  split
  · exact setLine_frugal _ _ _ w
  · exact ho w

/-- The step leaves a buffer with the line `x` in the gap as it is. -/
def Keeps (f : Step) (s : LineSite) (x : Text) : Prop :=
  f.Rewrites s x x ∧
    ∀ w : Work, w.writesLeft = none → w.buffer.text = s.fill x → (f w).work.buffer = w.buffer

variable {f g : Step} {s : LineSite} {x : Text}

theorem Frugal.keeps (hf : f.Frugal) (h : f.Rewrites s x x) : f.Keeps s x := by
  refine ⟨h, fun w hw ht => hf w ?_⟩
  rw [(h w hw ht).2.2, ht]

theorem Keeps.andThen (hf : f.Keeps s x) (hg : g.Keeps s x) : (f.andThen g).Keeps s x := by
  refine ⟨hf.1.andThen hg.1, fun w hw ht => ?_⟩
  obtain ⟨herror, hw', ht'⟩ := hf.1 w hw ht
  simp only [Step.andThen, herror, Option.isSome_none, Bool.false_eq_true, if_false]
  rw [hg.2 _ hw' ht', hf.2 w hw ht]

end Step

/-! ## The code lines of a span -/

/-- Whether a block comment is open after some lines. -/
def Comment.openAfter (inBlock : Bool) : List Text → Bool
  | [] => inBlock
  | line :: rest => openAfter (stripLine inBlock line).2 rest

/-- Consecutive lines as code lines, numbered from `first` on. -/
def CodeLine.ofLines (first : Nat) (inBlock : Bool) (texts : List Text) : List CodeLine :=
  CodeLine.numbered first (texts.zip (Comment.stripLines inBlock texts))

theorem CodeLine.ofLines_cons (first : Nat) (inBlock : Bool) (x : Text) (texts : List Text) :
    ofLines first inBlock (x :: texts)
      = ⟨first, x, (Comment.stripLine inBlock x).1⟩
        :: ofLines (first + 1) (Comment.stripLine inBlock x).2 texts := rfl

theorem CodeLine.ofLines_append (first : Nat) (inBlock : Bool) (above texts : List Text) :
    ofLines first inBlock (above ++ texts)
      = ofLines first inBlock above
        ++ ofLines (first + above.length) (Comment.openAfter inBlock above) texts := by
  induction above generalizing first inBlock with
  | nil => rfl
  | cons x above ih =>
    rw [List.cons_append, ofLines_cons, ofLines_cons, ih, List.cons_append, List.length_cons,
      Nat.add_right_comm, ← Nat.add_assoc]
    rfl

theorem CodeLine.number_lt_of_mem_ofLines {first : Nat} {inBlock : Bool} {texts : List Text}
    {l : CodeLine} (h : l ∈ ofLines first inBlock texts) : l.number < first + texts.length := by
  induction texts generalizing first inBlock with
  | nil => cases h
  | cons x texts ih =>
    rw [ofLines_cons] at h
    rcases List.mem_cons.1 h with rfl | h
    · simp
    · have := ih h
      simp only [List.length_cons]
      omega

theorem CodeLine.le_number_of_mem_ofLines {first : Nat} {inBlock : Bool} {texts : List Text}
    {l : CodeLine} (h : l ∈ ofLines first inBlock texts) : first ≤ l.number := by
  induction texts generalizing first inBlock with
  | nil => cases h
  | cons x texts ih =>
    rw [ofLines_cons] at h
    rcases List.mem_cons.1 h with rfl | h
    · exact Nat.le_refl _
    · exact Nat.le_of_succ_le (ih h)

theorem CodeLine.code_mem_of_mem_ofLines {first : Nat} {inBlock : Bool} {texts : List Text}
    {l : CodeLine} (h : l ∈ ofLines first inBlock texts) :
    l.code ∈ Comment.stripLines inBlock texts := by
  induction texts generalizing first inBlock with
  | nil => cases h
  | cons x texts ih =>
    rw [ofLines_cons] at h
    rcases List.mem_cons.1 h with rfl | h
    · exact List.mem_cons_self
    · exact List.mem_cons_of_mem _ (ih h)

namespace LineSite

/-- The lines above the gap, from line `first` on, hold no word of code and leave no comment
    open. -/
structure Quiet (s : LineSite) (first : Nat) : Prop where
  noWords : ∀ code ∈ Comment.stripLines false (s.above.drop first), ∀ b ∈ code,
    Byte.isWord b = false
  closed : Comment.openAfter false (s.above.drop first) = false

/-- The line in the gap as a code line. -/
def codeLine (s : LineSite) (x : Text) : CodeLine :=
  ⟨s.above.length, x, (Comment.stripLine false x).1⟩

variable {s : LineSite} {x : Text} {b : Buffer}

/-- The code lines of a span that reaches to the gap or beyond. -/
theorem codeLines_fill_eq (span : Span) (hfits : s.Fits x) (ht : b.text = s.fill x)
    (hquiet : s.Quiet span.first.toNat) (hfirst : span.first ≤ s.above.length)
    (hlast : s.above.length ≤ span.last) :
    b.codeLines span = CodeLine.ofLines span.first.toNat false (s.above.drop span.first.toNat)
      ++ s.codeLine x :: CodeLine.ofLines (s.above.length + 1) (Comment.stripLine false x).2
        (s.below.take ((span.last + 1).toNat - s.above.length - 1)) := by
  have htexts : (b.text.lines.take (span.last + 1).toNat).drop span.first.toNat
      = s.above.drop span.first.toNat
        ++ x :: s.below.take ((span.last + 1).toNat - s.above.length - 1) := by
    have hk : (span.last + 1).toNat - s.above.length
        = (span.last + 1).toNat - s.above.length - 1 + 1 := by omega
    rw [ht, hfits.lines, List.take_append, List.take_of_length_le (by omega), hk,
      List.take_succ_cons, List.drop_append_of_le_length (by omega)]
    rfl
  have hcode : b.codeLines span = CodeLine.ofLines span.first.toNat false
      ((b.text.lines.take (span.last + 1).toNat).drop span.first.toNat) := rfl
  have hnumber : span.first.toNat + (s.above.drop span.first.toNat).length = s.above.length := by
    rw [List.length_drop]
    omega
  -- the line in the gap is read as code because no comment is open above it
  rw [hcode, htexts, CodeLine.ofLines_append, hquiet.closed, CodeLine.ofLines_cons, hnumber]
  rfl

/-- There is nothing below the gap in a span that ends there. -/
theorem codeLines_fill (span : Span) (hfits : s.Fits x) (ht : b.text = s.fill x)
    (hquiet : s.Quiet span.first.toNat) (hfirst : span.first ≤ s.above.length)
    (hlast : s.above.length ≤ span.last) :
    ∃ rest, b.codeLines span
        = CodeLine.ofLines span.first.toNat false (s.above.drop span.first.toNat)
          ++ s.codeLine x :: rest ∧
      (span.last = s.above.length → rest = []) := by
  refine ⟨_, codeLines_fill_eq span hfits ht hquiet hfirst hlast, fun h => ?_⟩
  have hzero : (span.last + 1).toNat - s.above.length - 1 = 0 := by omega
  rw [hzero, List.take_zero]
  rfl

theorem Quiet.noWords_of_mem {first : Nat} (hquiet : s.Quiet first) {l : CodeLine}
    (hl : l ∈ CodeLine.ofLines first false (s.above.drop first)) :
    ∀ b ∈ l.code, Byte.isWord b = false :=
  hquiet.noWords _ (CodeLine.code_mem_of_mem_ofLines hl)

end LineSite

/-! ## Changing the line in the gap -/

/-- A line edit that leaves lines without words alone. -/
def LineEdit.NeedsWord (r : LineEdit) : Prop :=
  ∀ l : CodeLine, (∀ b ∈ l.code, Byte.isWord b = false) → r l = none

namespace LineSite

/-- The span ends at the gap, and has nothing but comments and punctuation above it. -/
structure Ends (s : LineSite) (span : Span) : Prop where
  quiet : s.Quiet span.first.toNat
  first_le : span.first ≤ s.above.length
  last_eq : span.last = s.above.length

/-- The span of the one line in the gap. -/
theorem ends_single (s : LineSite) : s.Ends ⟨s.above.length, s.above.length⟩ := by
  have hnil : s.above.drop (s.above.length : Int).toNat = [] := by simp
  refine ⟨⟨?_, ?_⟩, Int.le_refl _, rfl⟩
  · rw [hnil]
    exact fun code hcode => absurd hcode List.not_mem_nil
  · rw [hnil]
    rfl

/-- What a line edit takes in a span that ends at the gap is the line in the gap, or nothing. -/
theorem Ends.first?_fill {s : LineSite} {span : Span} (hspan : s.Ends span) {r : LineEdit}
    (hr : r.NeedsWord) {x : Text} (hfits : s.Fits x) (hx : x ≠ []) {b : Buffer}
    (ht : b.text = s.fill x) :
    r.first? (b.codeLines span) = (r (s.codeLine x)).map fun y => (s.codeLine x, y) := by
  obtain ⟨rest, hcode, hrest⟩ :=
    codeLines_fill span hfits ht hspan.quiet hspan.first_le (Int.le_of_eq hspan.last_eq.symm)
  rw [hrest hspan.last_eq] at hcode
  have habove : (CodeLine.ofLines span.first.toNat false (s.above.drop span.first.toNat)).findSome?
      (fun l => if l.text.isEmpty then none else (r l).map fun new => (l, new)) = none := by
    rw [List.findSome?_eq_none_iff]
    intro l hl
    split
    · rfl
    · rw [hr l (hspan.quiet.noWords_of_mem hl)]
      rfl
  rw [LineEdit.first?, hcode, List.findSome?_append, habove, Option.none_or, List.findSome?_cons,
    if_neg (by simpa [codeLine] using hx)]
  cases r (s.codeLine x) with
  | none => rfl
  | some y => rfl

end LineSite

namespace Step.Rewrites

variable {s : LineSite} {span : Span} {r : LineEdit} {x y : Text} {otherwise : Step}

/-- **A step rewrites the line in the gap as its line edit does.** -/
theorem editLine (hspan : s.Ends span) (hr : r.NeedsWord) (hfits : s.Fits x) (hx : x ≠ [])
    (hy : r (s.codeLine x) = some y) (scope : Option ToggleScope) :
    (Step.editLine scope span r otherwise).Rewrites s x y := by
  intro w hw ht
  rw [Step.editLine, hspan.first?_fill hr hfits hx ht, hy]
  exact setLine_rewrites scope hfits _ y w hw ht

theorem editLine_otherwise (hspan : s.Ends span) (hr : r.NeedsWord) (hfits : s.Fits x)
    (hx : x ≠ []) (hnone : r (s.codeLine x) = none) (ho : otherwise.Rewrites s x y)
    (scope : Option ToggleScope) : (Step.editLine scope span r otherwise).Rewrites s x y := by
  intro w hw ht
  rw [Step.editLine, hspan.first?_fill hr hfits hx ht, hnone]
  exact ho w hw ht

end Step.Rewrites

end ModifierToggle
