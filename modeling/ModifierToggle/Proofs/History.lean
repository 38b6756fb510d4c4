import Mathlib.Data.List.Basic
import Mathlib.Tactic.Common
import ModifierToggle.Buffer.Basic

set_option autoImplicit false

/-! # Edit histories

A recorded edit says which text stood where, and what took its place; it can be replayed, in either
direction, on exactly the texts that hold that text there. `Edit.Turns` says so for one edit and
`Edits.Turn` for the edits of a group. A history is exact when its groups form one chain of texts:
the undoable groups lead from the original text to the present one, the redoable groups lead on
from it. Replaying any part of such a chain, backwards and forwards, passes through the very texts
that were there before.

`Buffer.Exact` is that chain as an invariant. It holds of a fresh buffer and is kept by every
operation, so it holds after every run (`Buffer.run_exact`), and what a user can observe of undoing
and redoing follows from it. -/

namespace ModifierToggle

/-! ## What an edit does to a text -/

/-- The edit turns the text `s` into the text `t`: its old text stands at its place in `s`, its new
    text in the same place of `t`, and all else is the same. -/
def Edit.Turns (e : Edit) (s t : Text) : Prop :=
  ∃ front back : Text, front.length = e.start ∧ s = front ++ e.old ++ back ∧
    t = front ++ e.new ++ back

/-- The edits, made one after the other, turn the first text into the second. -/
inductive Edits.Turn : List Edit → Text → Text → Prop
  | nil (t : Text) : Edits.Turn [] t t
  | cons {e : Edit} {es : List Edit} {s t u : Text} :
      e.Turns s t → Edits.Turn es t u → Edits.Turn (e :: es) s u

theorem Edits.Turn.eq_of_nil {s t : Text} (h : Edits.Turn [] s t) : s = t := by
  cases h
  rfl

theorem Edits.Turn.append {es fs : List Edit} {s t u : Text} (h : Edits.Turn es s t)
    (h' : Edits.Turn fs t u) : Edits.Turn (es ++ fs) s u := by
  induction h with
  | nil _ => exact h'
  | cons he _ ih => exact .cons he (ih h')

theorem Edits.Turn.snoc {es : List Edit} {e : Edit} {s t u : Text} (h : Edits.Turn es s t)
    (he : e.Turns t u) : Edits.Turn (es ++ [e]) s u :=
  h.append (.cons he (.nil u))

/-- At offset `i` of the text stands `part`, whole and inside the text. -/
def Text.HoldsAt (t : Text) (i : Nat) (part : Text) : Prop :=
  i + part.length ≤ t.length ∧ t.slice i (i + part.length) = part

theorem Text.holdsAt_middle (front part back : Text) :
    (front ++ part ++ back).HoldsAt front.length part := by
  refine ⟨by simp, ?_⟩
  rw [Text.slice, ← List.length_append, List.take_left, List.drop_left]

theorem Edit.Turns.holdsAt_old {e : Edit} {s t : Text} (h : e.Turns s t) :
    s.HoldsAt e.start e.old := by
  obtain ⟨front, back, hstart, rfl, -⟩ := h
  exact hstart ▸ Text.holdsAt_middle front e.old back

theorem Edit.Turns.holdsAt_new {e : Edit} {s t : Text} (h : e.Turns s t) :
    t.HoldsAt e.start e.new := by
  obtain ⟨front, back, hstart, -, rfl⟩ := h
  exact hstart ▸ Text.holdsAt_middle front e.new back

/-- The groups, the latest first, lead from the text `origin` to the text `t`. -/
def PastOf (origin : Text) : List (List Edit) → Text → Prop
  | [], t => t = origin
  | group :: earlier, t => ∃ s, PastOf origin earlier s ∧ Edits.Turn group s t

/-- The groups can be made one after the other, starting from the text `s`. -/
def FutureOf : List (List Edit) → Text → Prop
  | [], _ => True
  | group :: later, s => ∃ t, Edits.Turn group s t ∧ FutureOf later t

namespace Buffer

/-! ## Splicing -/

@[simp] theorem splice_depth (b : Buffer) (start len : Nat) (new : Text) :
    (b.splice start len new).depth = b.depth := rfl

theorem splice_cursor_le (b : Buffer) (start len : Nat) (new : Text) :
    (b.splice start len new).cursor ≤ (b.splice start len new).text.length :=
  Nat.min_le_right _ _

/-- A splice replaces what it is told to replace, where that is what the text has there. -/
theorem splice_text {b : Buffer} {front old back : Text} (new : Text)
    (h : b.text = front ++ old ++ back) :
    (b.splice front.length old.length new).text = front ++ new ++ back := by
  have hdrop : b.text.drop (front.length + old.length) = back := by
    rw [h, ← List.length_append, List.drop_left]
  have htake : b.text.take front.length = front := by
    rw [h, List.append_assoc, List.take_left]
  simp only [splice, hdrop, htake]

theorem revert_text {b : Buffer} {e : Edit} {s t : Text} (he : e.Turns s t) (hb : b.text = t) :
    (b.revert e).text = s := by
  obtain ⟨front, back, hstart, rfl, rfl⟩ := he
  rw [revert, ← hstart, splice_text e.old hb]

theorem reapply_text {b : Buffer} {e : Edit} {s t : Text} (he : e.Turns s t) (hb : b.text = s) :
    (b.reapply e).text = t := by
  obtain ⟨front, back, hstart, rfl, rfl⟩ := he
  rw [reapply, ← hstart, splice_text e.new hb]

/-! ## Replaying a group -/

/-- Replaying edits changes the text and the cursor only. -/
theorem foldl_frame {f : Buffer → Edit → Buffer}
    (hf : ∀ b e, f b e = { b with text := (f b e).text, cursor := (f b e).cursor })
    (es : List Edit) (b : Buffer) :
    es.foldl f b = { b with text := (es.foldl f b).text, cursor := (es.foldl f b).cursor } := by
  induction es generalizing b with
  | nil => rfl
  | cons e es ih =>
    rw [List.foldl_cons, ih (f b e)]
    rw [hf b e]

theorem foldl_revert_frame (es : List Edit) (b : Buffer) :
    es.foldl revert b
      = { b with text := (es.foldl revert b).text, cursor := (es.foldl revert b).cursor } :=
  foldl_frame (fun _ _ => rfl) es b

theorem foldl_reapply_frame (es : List Edit) (b : Buffer) :
    es.foldl reapply b
      = { b with text := (es.foldl reapply b).text, cursor := (es.foldl reapply b).cursor } :=
  foldl_frame (fun _ _ => rfl) es b

/-- Taking the edits of a group back, the last one first, leads from its outcome to its origin. -/
theorem foldl_revert_text {group : List Edit} {s t : Text} (hg : Edits.Turn group s t)
    {b : Buffer} (hb : b.text = t) : (group.reverse.foldl revert b).text = s := by
  induction hg generalizing b with
  | nil _ => exact hb
  | cons he _ ih =>
    rw [List.reverse_cons, List.foldl_append]
    exact revert_text he (ih hb)

/-- Making the edits of a group again leads from its origin to its outcome. -/
theorem foldl_reapply_text {group : List Edit} {s t : Text} (hg : Edits.Turn group s t)
    {b : Buffer} (hb : b.text = s) : (group.foldl reapply b).text = t := by
  induction hg generalizing b with
  | nil _ => exact hb
  | cons he _ ih => exact ih (reapply_text he hb)

theorem foldl_cursor_le {f : Buffer → Edit → Buffer}
    (hf : ∀ b e, (f b e).cursor ≤ (f b e).text.length) (es : List Edit) {b : Buffer}
    (hb : b.cursor ≤ b.text.length) : (es.foldl f b).cursor ≤ (es.foldl f b).text.length := by
  induction es generalizing b with
  | nil => exact hb
  | cons e es ih => exact ih (hf b e)

/-! ## What replacing a range records -/

/-- The buffer `b'` is `b` after the edit `e`, with the edit on record: in the open group if there
    is one, as a group of its own if not. -/
structure Recorded (b : Buffer) (e : Edit) (b' : Buffer) : Prop where
  turns : e.Turns b.text b'.text
  changes : e.old ≠ e.new
  cursor_le : b'.cursor ≤ b'.text.length
  redoable : b'.redoable = []
  depth : b'.depth = b.depth
  grouped : 0 < b.depth → b'.pending = b.pending ++ [e] ∧ b'.undoable = b.undoable
  alone : b.depth = 0 → b'.pending = b.pending ∧ b'.undoable = [e] :: b.undoable

/-- The range of a replacement that is accepted lies in the text. -/
theorem replaceRange_inRange {b b' : Buffer} {start stop : Int} {new : Text}
    (h : b.replaceRange start stop new = .ok b') :
    0 ≤ start ∧ start ≤ stop ∧ stop ≤ b.text.length := by
  unfold replaceRange at h
  split at h
  · cases h
  · next hrange =>
      simp only [Bool.or_eq_true, decide_eq_true_eq] at hrange
      omega

/-- A text is cut into three at the two ends of a range. -/
theorem text_eq_slices {t : Text} {i j : Nat} (hij : i ≤ j) :
    t = t.take i ++ t.slice i j ++ t.drop j := by
  have hcut : t.take j = t.take i ++ t.slice i j := by
    conv_lhs => rw [← List.take_append_drop i (t.take j), List.take_take, Nat.min_eq_left hij]
    rfl
  rw [← hcut, List.take_append_drop]

/-- **An accepted replacement changes nothing, or it is recorded.** -/
theorem replaceRange_cases {b b' : Buffer} {start stop : Int} {new : Text}
    (h : b.replaceRange start stop new = .ok b') : b' = b ∨ ∃ e, Recorded b e b' := by
  obtain ⟨hstart, hstop, hlen⟩ := replaceRange_inRange h
  have hle : start.toNat ≤ stop.toNat := by omega
  have htake : (b.text.take start.toNat).length = start.toNat := by
    rw [List.length_take]; omega
  unfold replaceRange at h
  split at h
  · cases h
  · -- the recorded edit covers the middle of the three parts
    set e : Edit := ⟨start.toNat, b.text.slice start.toNat stop.toNat, new⟩ with he
    dsimp only at h
    split at h
    · exact Or.inl (Except.ok.inj h).symm
    · next hchanges =>
      have hturns : e.Turns b.text (b.splice e.start e.old.length new).text := by
        refine ⟨b.text.take start.toNat, b.text.drop stop.toNat, htake, text_eq_slices hle, ?_⟩
        have := splice_text (b := b) new (text_eq_slices (t := b.text) hle)
        rwa [htake] at this
      have hcursor := b.splice_cursor_le e.start e.old.length new
      refine Or.inr ⟨e, ?_⟩
      have hb' := (Except.ok.inj h).symm
      by_cases hdepth : 0 < b.depth
      · simp only [splice_depth, hdepth, if_true] at hb'
        subst hb'
        exact ⟨hturns, hchanges, hcursor, rfl, rfl, fun _ => ⟨rfl, rfl⟩, fun h0 => by omega⟩
      · simp only [splice_depth, hdepth, if_false] at hb'
        subst hb'
        exact ⟨hturns, hchanges, hcursor, rfl, rfl, fun h0 => absurd h0 hdepth,
          fun _ => ⟨rfl, rfl⟩⟩

/-- A recorded edit changes the text. -/
theorem Recorded.text_ne {b b' : Buffer} {e : Edit} (h : Recorded b e b') : b'.text ≠ b.text := by
  obtain ⟨front, back, -, hold, hnew⟩ := h.turns
  rw [hold, hnew]
  intro hsame
  exact h.changes (List.append_cancel_left (List.append_cancel_right hsame)).symm

/-! ## The invariant -/

/-- The history of the buffer is exact: the undoable groups lead from `origin` to a text from which
    the edits of the open group lead to the present one, and the redoable groups lead on from
    there. -/
structure Exact (origin : Text) (b : Buffer) : Prop where
  cursor_le : b.cursor ≤ b.text.length
  past : ∃ s, PastOf origin b.undoable s ∧ Edits.Turn b.pending s b.text
  closed : b.depth = 0 → b.pending = []
  future : FutureOf b.redoable b.text

theorem ofText_exact (t : Text) : (ofText t).Exact t :=
  ⟨Nat.zero_le _, ⟨t, rfl, .nil t⟩, fun _ => rfl, trivial⟩

variable {origin : Text} {b b' : Buffer}

/-- With no group open, the undoable groups alone lead to the present text. -/
theorem Exact.past_text (h : b.Exact origin) (hd : b.depth = 0) :
    PastOf origin b.undoable b.text := by
  obtain ⟨s, hpast, hpending⟩ := h.past
  rw [h.closed hd] at hpending
  exact hpending.eq_of_nil ▸ hpast

theorem Recorded.exact {e : Edit} (hr : Recorded b e b') (h : b.Exact origin) :
    b'.Exact origin := by
  obtain ⟨s, hpast, hpending⟩ := h.past
  have hfuture : FutureOf b'.redoable b'.text := by rw [hr.redoable]; trivial
  rcases Nat.eq_zero_or_pos b.depth with hd | hd
  · obtain ⟨hp, hu⟩ := hr.alone hd
    refine ⟨hr.cursor_le, ⟨b'.text, ?_, ?_⟩, fun _ => ?_, hfuture⟩
    · rw [hu]
      exact ⟨b.text, h.past_text hd, .cons hr.turns (.nil _)⟩
    · rw [hp, h.closed hd]
      exact .nil _
    · rw [hp, h.closed hd]
  · obtain ⟨hp, hu⟩ := hr.grouped hd
    refine ⟨hr.cursor_le, ⟨s, ?_, ?_⟩, fun h0 => ?_, hfuture⟩
    · rw [hu]
      exact hpast
    · rw [hp]
      exact hpending.snoc hr.turns
    · rw [hr.depth] at h0
      omega

theorem replaceRange_exact {start stop : Int} {new : Text} (h : b.Exact origin)
    (hr : b.replaceRange start stop new = .ok b') : b'.Exact origin := by
  rcases replaceRange_cases hr with rfl | ⟨e, he⟩
  · exact h
  · exact he.exact h

theorem moveCursor_exact (h : b.Exact origin) (offset : Int) : (b.moveCursor offset).Exact origin :=
  ⟨Nat.min_le_right _ _, h.past, h.closed, h.future⟩

theorem beginGroup_exact (h : b.Exact origin) : b.beginGroup.Exact origin := by
  have hpending : (if b.depth = 0 then [] else b.pending) = b.pending := by
    split
    · next hd => rw [h.closed hd]
    · rfl
  refine ⟨h.cursor_le, ?_, fun hd => absurd hd (Nat.succ_ne_zero _), h.future⟩
  simpa only [beginGroup, hpending] using h.past

theorem endGroup_exact (h : b.Exact origin) : b.endGroup.Exact origin := by
  unfold endGroup
  split
  · exact h
  · split
    · next hempty =>
        have hp : b.pending = [] := List.isEmpty_iff.1 hempty
        exact ⟨h.cursor_le, h.past, fun _ => hp, h.future⟩
    · obtain ⟨s, hpast, hpending⟩ := h.past
      exact ⟨h.cursor_le, ⟨b.text, ⟨s, hpast, hpending⟩, .nil _⟩, fun _ => rfl, h.future⟩
  · next depth hne hd =>
      refine ⟨h.cursor_le, h.past, fun h0 => ?_, h.future⟩
      subst h0
      exact (hne rfl).elim

/-! ## Undoing and redoing -/

/-- **What undoing does.** It needs a recorded group and no open one. It moves the group to the
    redoable ones and brings back the text from before it. -/
theorem undo?_of_turn (hd : b.depth = 0) {group : List Edit} {earlier : List (List Edit)}
    (hu : b.undoable = group :: earlier) {s : Text} (hturn : Edits.Turn group s b.text) :
    ∃ u, b.undo? = some u ∧ u.text = s ∧ (b.cursor ≤ b.text.length → u.cursor ≤ s.length) ∧
      u.undoable = earlier ∧ u.redoable = group :: b.redoable ∧ u.pending = b.pending ∧
      u.depth = 0 := by
  have htext : (group.reverse.foldl revert b).text = s := foldl_revert_text hturn rfl
  have hcursor : b.cursor ≤ b.text.length → (group.reverse.foldl revert b).cursor ≤ s.length :=
    fun hb => htext ▸ foldl_cursor_le (fun b _ => b.splice_cursor_le _ _ _) group.reverse hb
  refine ⟨{ group.reverse.foldl revert b with
      undoable := earlier, redoable := group :: b.redoable }, ?_, htext, hcursor, rfl, rfl, ?_, ?_⟩
  · simp [undo?, hd, hu]
  · rw [foldl_revert_frame]
  · rw [foldl_revert_frame]
    exact hd

/-- **What redoing does.** It needs an undone group and no open one. It moves the group back to the
    undoable ones and brings about the text from after it. -/
theorem redo?_of_turn (hd : b.depth = 0) {group : List Edit} {later : List (List Edit)}
    (hr : b.redoable = group :: later) {t : Text} (hturn : Edits.Turn group b.text t) :
    ∃ r, b.redo? = some r ∧ r.text = t ∧ (b.cursor ≤ b.text.length → r.cursor ≤ t.length) ∧
      r.undoable = group :: b.undoable ∧ r.redoable = later ∧ r.pending = b.pending ∧
      r.depth = 0 := by
  have htext : (group.foldl reapply b).text = t := foldl_reapply_text hturn rfl
  have hcursor : b.cursor ≤ b.text.length → (group.foldl reapply b).cursor ≤ t.length :=
    fun hb => htext ▸ foldl_cursor_le (fun b _ => b.splice_cursor_le _ _ _) group hb
  refine ⟨{ group.foldl reapply b with
      undoable := group :: b.undoable, redoable := later }, ?_, htext, hcursor, rfl, rfl, ?_, ?_⟩
  · simp [redo?, hd, hr]
  · rw [foldl_reapply_frame]
  · rw [foldl_reapply_frame]
    exact hd

/-- Undoing keeps the history exact, and the group it undoes leads back to where it was called. -/
theorem undo?_spec (h : b.Exact origin) (hd : b.depth = 0) {group : List Edit}
    {earlier : List (List Edit)} (hu : b.undoable = group :: earlier) :
    ∃ u, b.undo? = some u ∧ u.Exact origin ∧ u.depth = 0 ∧ u.undoable = earlier ∧
      u.redoable = group :: b.redoable ∧ Edits.Turn group u.text b.text := by
  obtain ⟨s, hpast, hturn⟩ : PastOf origin (group :: earlier) b.text := hu ▸ h.past_text hd
  obtain ⟨u, hsome, rfl, hcursor, hundo, hredo, hpending, hdepth⟩ := undo?_of_turn hd hu hturn
  refine ⟨u, hsome, ⟨hcursor h.cursor_le, ⟨u.text, hundo ▸ hpast, ?_⟩, fun _ => ?_, ?_⟩, hdepth,
    hundo, hredo, hturn⟩
  · rw [hpending, h.closed hd]
    exact .nil _
  · rw [hpending, h.closed hd]
  · rw [hredo]
    exact ⟨b.text, hturn, h.future⟩

/-- Redoing keeps the history exact, and leads where the group it redoes leads. -/
theorem redo?_spec (h : b.Exact origin) (hd : b.depth = 0) {group : List Edit}
    {later : List (List Edit)} (hr : b.redoable = group :: later) :
    ∃ r, b.redo? = some r ∧ r.Exact origin ∧ r.depth = 0 ∧ r.undoable = group :: b.undoable ∧
      r.redoable = later ∧ ∀ t, Edits.Turn group b.text t → r.text = t := by
  obtain ⟨t, hturn, hfuture⟩ : FutureOf (group :: later) b.text := hr ▸ h.future
  obtain ⟨r, hsome, rfl, hcursor, hundo, hredo, hpending, hdepth⟩ := redo?_of_turn hd hr hturn
  refine ⟨r, hsome, ⟨hcursor h.cursor_le, ⟨r.text, ?_, ?_⟩, fun _ => ?_, hredo ▸ hfuture⟩, hdepth,
    hundo, hredo, fun t' hturn' => ?_⟩
  · rw [hundo]
    exact ⟨b.text, h.past_text hd, hturn⟩
  · rw [hpending, h.closed hd]
    exact .nil _
  · rw [hpending, h.closed hd]
  · rw [← foldl_reapply_text hturn (b := b) rfl, foldl_reapply_text hturn' rfl]

theorem undo?_of_open (hd : 0 < b.depth) : b.undo? = none := by
  simp [undo?, hd]

theorem redo?_of_open (hd : 0 < b.depth) : b.redo? = none := by
  simp [redo?, hd]

theorem undo?_eq_none (hu : b.undoable = []) : b.undo? = none := by
  simp [undo?, hu]

theorem redo?_eq_none (hr : b.redoable = []) : b.redo? = none := by
  simp [redo?, hr]

theorem undo?_exact (h : b.Exact origin) (hu : b.undo? = some b') : b'.Exact origin := by
  rcases Nat.eq_zero_or_pos b.depth with hd | hd
  · cases hlist : b.undoable with
    | nil => rw [undo?_eq_none hlist] at hu; cases hu
    | cons group earlier =>
        obtain ⟨u, hu', hexact, -⟩ := undo?_spec h hd hlist
        rw [hu'] at hu
        exact Option.some.inj hu ▸ hexact
  · rw [undo?_of_open hd] at hu; cases hu

theorem redo?_exact (h : b.Exact origin) (hr : b.redo? = some b') : b'.Exact origin := by
  rcases Nat.eq_zero_or_pos b.depth with hd | hd
  · cases hlist : b.redoable with
    | nil => rw [redo?_eq_none hlist] at hr; cases hr
    | cons group later =>
        obtain ⟨r, hr', hexact, -⟩ := redo?_spec h hd hlist
        rw [hr'] at hr
        exact Option.some.inj hr ▸ hexact
  · rw [redo?_of_open hd] at hr; cases hr

/-! ## Undoing and redoing several times -/

/-- Undo `n` times in a row; `none` when one of them is refused. -/
def undoTimes : Nat → Buffer → Option Buffer
  | 0, b => some b
  | n + 1, b => b.undo?.bind (undoTimes n)

/-- Redo `n` times in a row; `none` when one of them is refused. -/
def redoTimes : Nat → Buffer → Option Buffer
  | 0, b => some b
  | n + 1, b => b.redo?.bind (redoTimes n)

theorem redoTimes_succ (n : Nat) (b : Buffer) :
    redoTimes (n + 1) b = (redoTimes n b).bind redo? := by
  induction n generalizing b with
  | zero => simp [redoTimes]
  | succ n ih =>
    rw [redoTimes]
    cases hr : b.redo? with
    | none => simp [redoTimes, hr]
    | some r =>
        rw [Option.bind_some, ih r]
        simp only [redoTimes, hr, Option.bind_some]

/-- Undoing as often as there are groups on record leads back to the origin, and no further. -/
theorem undoTimes_depth (h : b.Exact origin) (hd : b.depth = 0) :
    ∃ u, undoTimes b.undoDepth b = some u ∧ u.text = origin ∧ u.undo? = none := by
  induction hlist : b.undoable generalizing b with
  | nil =>
    have hpast : PastOf origin [] b.text := hlist ▸ h.past_text hd
    exact ⟨b, by simp [undoDepth, hlist, undoTimes], hpast, undo?_eq_none hlist⟩
  | cons group earlier ih =>
    obtain ⟨u, hu, hexact, hdu, hearlier, -, -⟩ := undo?_spec h hd hlist
    obtain ⟨v, hv, htext, hnone⟩ := ih hexact hdu hearlier
    refine ⟨v, ?_, htext, hnone⟩
    have hlen : b.undoDepth = u.undoDepth + 1 := by simp [undoDepth, hlist, hearlier]
    rw [hlen, undoTimes, hu]
    exact hv

/-- Undoing `k` times and redoing `k` times gives back text and history. -/
theorem redoTimes_undoTimes (h : b.Exact origin) (hd : b.depth = 0) {k : Nat}
    (hk : k ≤ b.undoDepth) :
    ∃ u r, undoTimes k b = some u ∧ redoTimes k u = some r ∧ r.Exact origin ∧ r.depth = 0 ∧
      r.text = b.text ∧ r.undoable = b.undoable ∧ r.redoable = b.redoable := by
  induction k generalizing b with
  | zero => exact ⟨b, b, rfl, rfl, h, hd, rfl, rfl, rfl⟩
  | succ k ih =>
    cases hlist : b.undoable with
    | nil => simp [undoDepth, hlist] at hk
    | cons group earlier =>
        obtain ⟨v, hv, hexact, hdv, hearlier, hredo, hturn⟩ := undo?_spec h hd hlist
        have hk' : k ≤ v.undoDepth := by
          simp only [undoDepth, hlist, hearlier, List.length_cons] at hk ⊢
          omega
        -- the innermost undos and redos lead back to `v`, and one more redo to `b`
        obtain ⟨u, w, hu, hw, hwexact, hdw, hwtext, hwundo, hwredo⟩ := ih hexact hdv hk'
        obtain ⟨r, hr, hrexact, hdr, hrundo, hrredo, hrtext⟩ :=
          redo?_spec hwexact hdw (hwredo.trans hredo)
        refine ⟨u, r, ?_, ?_, hrexact, hdr, ?_, ?_, hrredo⟩
        · rw [undoTimes, hv]
          exact hu
        · rw [redoTimes_succ, hw]
          exact hr
        · exact hrtext _ (hwtext ▸ hturn)
        · rw [hrundo, hwundo, hearlier]

/-! ## Replaying stays in place -/

/-- Each of the edits, taken back in this order, finds the text it once put in. -/
def RevertsInPlace : List Edit → Buffer → Prop
  | [], _ => True
  | e :: es, b => b.text.HoldsAt e.start e.new ∧ RevertsInPlace es (b.revert e)

/-- Each of the edits, made again in this order, finds the text it once took out. -/
def ReappliesInPlace : List Edit → Buffer → Prop
  | [], _ => True
  | e :: es, b => b.text.HoldsAt e.start e.old ∧ ReappliesInPlace es (b.reapply e)

theorem RevertsInPlace.snoc {es : List Edit} {e : Edit} (h : RevertsInPlace es b)
    (he : (es.foldl revert b).text.HoldsAt e.start e.new) : RevertsInPlace (es ++ [e]) b := by
  induction es generalizing b with
  | nil => exact ⟨he, trivial⟩
  | cons _ _ ih => exact ⟨h.1, ih h.2 he⟩

theorem revertsInPlace_of_turn {group : List Edit} {s t : Text} (hg : Edits.Turn group s t)
    (hb : b.text = t) : RevertsInPlace group.reverse b := by
  induction hg generalizing b with
  | nil _ => trivial
  | cons he hes ih =>
    rw [List.reverse_cons]
    refine (ih hb).snoc ?_
    rw [foldl_revert_text hes hb]
    exact he.holdsAt_new

theorem reappliesInPlace_of_turn {group : List Edit} {s t : Text} (hg : Edits.Turn group s t)
    (hb : b.text = s) : ReappliesInPlace group b := by
  induction hg generalizing b with
  | nil _ => trivial
  | cons he _ ih => exact ⟨hb ▸ he.holdsAt_old, ih (reapply_text he hb)⟩

/-! ## Runs -/

/-- What can be done to a buffer. -/
inductive Operation where
  | replaceRange (start stop : Int) (new : Text)
  | moveCursor (offset : Int)
  | beginGroup
  | endGroup
  | undo
  | redo
  deriving Repr, DecidableEq

/-- Do something to a buffer. What is refused changes nothing. -/
def perform (b : Buffer) : Operation → Buffer
  | .replaceRange start stop new =>
    match b.replaceRange start stop new with
    | .ok b' => b'
    | .error _ => b
  | .moveCursor offset => b.moveCursor offset
  | .beginGroup => b.beginGroup
  | .endGroup => b.endGroup
  | .undo => b.undo?.getD b
  | .redo => b.redo?.getD b

/-- Do one thing after the other. -/
def run (b : Buffer) (ops : List Operation) : Buffer := ops.foldl perform b

theorem perform_exact (h : b.Exact origin) (op : Operation) : (b.perform op).Exact origin := by
  cases op with
  | replaceRange start stop new =>
    rw [perform]
    split
    · next b' hb' => exact replaceRange_exact h hb'
    · exact h
  | moveCursor offset => exact moveCursor_exact h offset
  | beginGroup => exact beginGroup_exact h
  | endGroup => exact endGroup_exact h
  | undo =>
    cases hu : b.undo? with
    | none => simpa [perform, hu] using h
    | some u => simpa [perform, hu] using undo?_exact h hu
  | redo =>
    cases hr : b.redo? with
    | none => simpa [perform, hr] using h
    | some r => simpa [perform, hr] using redo?_exact h hr

/-- **The history is exact after every run.** -/
theorem run_exact (h : b.Exact origin) (ops : List Operation) : (b.run ops).Exact origin := by
  induction ops generalizing b with
  | nil => exact h
  | cons op ops ih => exact ih (perform_exact h op)

/-- **Undo histories are exact over whole runs.** Whatever is done to a fresh buffer, its cursor
    lies in the text, every replacement it accepts and every recorded edit it is about to replay is
    one of the text, an open group makes undoing and redoing impossible, and with no group open
    undoing leads back to the original text in exactly as many steps as there are groups, from each
    of which redoing leads back to where it came from. -/
theorem undo_history_exact (t : Text) (ops : List Operation) :
    let b := (ofText t).run ops
    b.cursor ≤ b.text.length ∧
    (∀ start stop new b', b.replaceRange start stop new = .ok b' →
      0 ≤ start ∧ start ≤ stop ∧ stop ≤ b.text.length) ∧
    (0 < b.depth →
      b.undo? = none ∧ b.redo? = none ∧ b.perform .undo = b ∧ b.perform .redo = b) ∧
    (b.depth = 0 →
      (∀ group ∈ b.undoable.head?, RevertsInPlace group.reverse b) ∧
      (∀ group ∈ b.redoable.head?, ReappliesInPlace group b) ∧
      (∃ u, undoTimes b.undoDepth b = some u ∧ u.text = t ∧ u.undo? = none) ∧
      ∀ k ≤ b.undoDepth, ∃ u r, undoTimes k b = some u ∧ redoTimes k u = some r ∧
        r.text = b.text ∧ r.undoable = b.undoable ∧ r.redoable = b.redoable) := by
  intro b
  have h : b.Exact t := run_exact (ofText_exact t) ops
  refine ⟨h.cursor_le, fun _ _ _ _ hr => replaceRange_inRange hr, fun hd => ?_, fun hd => ?_⟩
  · have hu := undo?_of_open hd
    have hr := redo?_of_open hd
    exact ⟨hu, hr, by simp [perform, hu], by simp [perform, hr]⟩
  · refine ⟨fun group hg => ?_, fun group hg => ?_, undoTimes_depth h hd, fun k hk => ?_⟩
    · obtain ⟨earlier, hlist⟩ := List.head?_eq_some_iff.1 hg
      obtain ⟨s, -, hturn⟩ : PastOf t (group :: earlier) b.text := hlist ▸ h.past_text hd
      exact revertsInPlace_of_turn hturn rfl
    · obtain ⟨later, hlist⟩ := List.head?_eq_some_iff.1 hg
      obtain ⟨s, hturn, -⟩ : FutureOf (group :: later) b.text := hlist ▸ h.future
      exact reappliesInPlace_of_turn hturn rfl
    · obtain ⟨u, r, hu, hr, -, -, htext, hundo, hredo⟩ := redoTimes_undoTimes h hd hk
      exact ⟨u, r, hu, hr, htext, hundo, hredo⟩

end Buffer

end ModifierToggle
