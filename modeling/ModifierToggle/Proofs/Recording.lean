import ModifierToggle.Editor.Basic
import ModifierToggle.Proofs.History

set_option autoImplicit false

/-! # Steps are recorded

An editing step reaches the buffer through `replaceRange` alone, so while a group is open every
change it makes is on record in that group, at whatever point the step fails. `Step.Recorded` says
so of one step. It holds of the steps that replace nothing and of the one that changes a line, and
passes through everything steps are composed with. Nothing here depends on the language, on the
job, or on what the step is meant to do.

Taken inside a group of its own, such a step leaves either no trace or one group
(`Editor.grouped_atMostOneChange`), and one undo takes it back. -/

namespace ModifierToggle

namespace Buffer

/-- Between the buffers `b` and `b'`, in an open group, the edits `es` were made and put on record,
    and nothing else happened to the history. -/
structure Extends (b : Buffer) (es : List Edit) (b' : Buffer) : Prop where
  turn : Edits.Turn es b.text b'.text
  pending : b'.pending = b.pending ++ es
  undoable : b'.undoable = b.undoable
  redoable : b'.redoable = if es = [] then b.redoable else []
  depth : b'.depth = b.depth

theorem Extends.refl (b : Buffer) : b.Extends [] b :=
  ⟨.nil _, (List.append_nil _).symm, rfl, rfl, rfl⟩

theorem Extends.trans {b b' b'' : Buffer} {es fs : List Edit} (h : b.Extends es b')
    (h' : b'.Extends fs b'') : b.Extends (es ++ fs) b'' := by
  refine ⟨h.turn.append h'.turn, ?_, h'.undoable.trans h.undoable, ?_, h'.depth.trans h.depth⟩
  · rw [h'.pending, h.pending, List.append_assoc]
  · rw [h'.redoable, h.redoable]
    cases es with
    | nil => rfl
    | cons e es => simp

theorem Recorded.extends {b b' : Buffer} {e : Edit} (h : Recorded b e b') (hd : 0 < b.depth) :
    b.Extends [e] b' :=
  ⟨.cons h.turns (.nil _), (h.grouped hd).1, (h.grouped hd).2, h.redoable, h.depth⟩

theorem replaceRange_extends {b b' : Buffer} {start stop : Int} {new : Text} (hd : 0 < b.depth)
    (h : b.replaceRange start stop new = .ok b') : ∃ es, b.Extends es b' := by
  rcases replaceRange_cases h with rfl | ⟨e, he⟩
  · exact ⟨[], .refl _⟩
  · exact ⟨[e], he.extends hd⟩

end Buffer

/-- However many replacements are still accepted, one that is accepted is made in the buffer. -/
theorem Work.replaceRange_buffer {w w' : Work} {start stop : Int} {new : Text}
    (h : w.replaceRange start stop new = .ok w') :
    w.buffer.replaceRange start stop new = .ok w'.buffer := by
  unfold Work.replaceRange at h
  split at h
  · cases h
  all_goals
    cases hb : w.buffer.replaceRange start stop new with
    | error _ => rw [hb] at h; cases h
    | ok b =>
        rw [hb] at h
        cases h
        rfl

namespace Step

/-- Whatever the step does to a buffer with an open group is on record in that group, also when the
    step fails. -/
def Recorded (f : Step) : Prop :=
  ∀ w : Work, 0 < w.buffer.depth → ∃ es, w.buffer.Extends es (f w).work.buffer

/-! ## The elementary steps -/

theorem recorded_of_buffer_eq {f : Step} (h : ∀ w, (f w).work.buffer = w.buffer) : f.Recorded := by
  intro w _
  exact ⟨[], h w ▸ .refl _⟩

theorem skip_recorded : skip.Recorded := recorded_of_buffer_eq fun _ => rfl

theorem report_recorded (scope : Option ToggleScope) (e : Event) : (report scope e).Recorded :=
  recorded_of_buffer_eq fun _ => rfl

theorem setLine_recorded (scope : Option ToggleScope) (l : CodeLine) (new : Text) :
    (setLine scope l new).Recorded := by
  intro w hd
  unfold setLine
  split
  · exact ⟨[], .refl _⟩
  · dsimp only
    split
    · exact ⟨[], .refl _⟩
    · next w' hw' =>
        have hbuffer := Work.replaceRange_buffer hw'
        exact Buffer.replaceRange_extends hd hbuffer

/-! ## Composed steps -/

theorem Recorded.andThen {f g : Step} (hf : f.Recorded) (hg : g.Recorded) :
    (f.andThen g).Recorded := by
  intro w hd
  obtain ⟨es, hes⟩ := hf w hd
  unfold Step.andThen
  dsimp only
  split
  · exact ⟨es, hes⟩
  · obtain ⟨fs, hfs⟩ := hg (f w).work (hes.depth ▸ hd)
    exact ⟨es ++ fs, hes.trans hfs⟩

theorem Recorded.mapError {f : Step} (hf : f.Recorded) (context : EditError → EditError) :
    (f.mapError context).Recorded := hf

theorem Recorded.ite {f g : Step} {c : Prop} [Decidable c] (hf : f.Recorded) (hg : g.Recorded) :
    (if c then f else g).Recorded := by
  split
  · exact hf
  · exact hg

theorem editLine_recorded (scope : Option ToggleScope) (span : Span) (r : LineEdit)
    {otherwise : Step} (h : otherwise.Recorded) : (editLine scope span r otherwise).Recorded := by
  intro w hd
  unfold editLine
  split
  · exact setLine_recorded scope _ _ w hd
  · exact h w hd

end Step

namespace Editor

open Step

/-! ## The edits of the editor -/

theorem changeAccess_recorded (ed : Editor) (span : Span) (kind : Kind) (vis : Text) :
    (ed.changeAccess span kind vis).Recorded :=
  editLine_recorded _ _ _ (.ite skip_recorded (editLine_recorded _ _ _ skip_recorded))

theorem addModifier_recorded (ed : Editor) (span : Span) (m : Modifier) :
    (ed.addModifier span m).Recorded := by
  unfold addModifier
  split
  · exact editLine_recorded _ _ _ skip_recorded
  · exact report_recorded _ _

theorem removeModifier_recorded (ed : Editor) (span : Span) (m : Modifier) :
    (ed.removeModifier span m).Recorded := by
  unfold removeModifier
  split
  · exact editLine_recorded _ _ _ skip_recorded
  · exact skip_recorded

theorem fixPlacement_recorded (ed : Editor) (m : Modifier) (span : Span) :
    (ed.fixPlacement m span).Recorded := by
  unfold fixPlacement
  split
  · exact skip_recorded
  · split
    · exact skip_recorded
    · exact editLine_recorded _ _ _ (report_recorded _ _)

/-- Restoring the canonical layout takes two kinds of steps. -/
theorem normalize_induction {P : Step → Prop} (ed : Editor) (span : Span) (hskip : P skip)
    (handThen : ∀ f g, P f → P g → P (f.andThen g)) (horder : P (ed.fixOrder span))
    (hplace : ∀ m, P (ed.fixPlacement m span)) : P (ed.normalize span) := by
  refine handThen _ _ (hplace .final) (handThen _ _ ?_
    (handThen _ _ (hplace .inlined) (hplace .noCompletion)))
  split
  · exact horder
  · exact hskip

/-- Every job is a change of the visibility, or adds or removes modifiers. -/
theorem runJob_induction {P : Step → Prop} (ed : Editor) (span : Span) (kind : Kind) (vis : Text)
    (hskip : P skip) (handThen : ∀ f g, P f → P g → P (f.andThen g))
    (hadd : ∀ m, P (ed.addModifier span m)) (hremove : ∀ m, P (ed.removeModifier span m))
    (hfails : ∀ e, P fun w => { work := w, error := some e }) {job : Job}
    (haccess : job = .changeAccess → P (ed.changeAccess span kind vis)) :
    P (ed.runJob span kind vis job) := by
  cases job with
  | changeAccess => exact haccess rfl
  | addStatic =>
    refine handThen _ _ ?_ (hadd .static)
    split
    · exact hremove .final
    · exact hskip
  | makeClassFinal | makeMethodFinal | makeClassExternal | addInline | addNoCompletion =>
    exact hadd _
  | makeClassNotFinal | makeMethodNotFinal | makeClassNotExternal | removeStatic | removeInline
  | removeNoCompletion => exact hremove _
  | unknown number => exact hfails _

theorem normalize_recorded (ed : Editor) (span : Span) : (ed.normalize span).Recorded :=
  normalize_induction ed span skip_recorded (fun _ _ => Recorded.andThen)
    (editLine_recorded _ _ _ skip_recorded) fun m => fixPlacement_recorded ed m span

theorem runJob_recorded (ed : Editor) (span : Span) (kind : Kind) (vis : Text) (job : Job) :
    (ed.runJob span kind vis job).Recorded :=
  runJob_induction ed span kind vis skip_recorded (fun _ _ => Recorded.andThen)
    (addModifier_recorded ed span) (removeModifier_recorded ed span)
    (fun _ => recorded_of_buffer_eq fun _ => rfl) fun _ => changeAccess_recorded ed span kind vis

/-! ## One group for a whole step -/

/-- The buffer `b'` is `b` after at most one undoable change: no group is open, and either text and
    history are as they were, or one group came on top and none is left to redo, one undo gives the
    old text back, and one redo after it the new one. -/
def AtMostOneChange (b b' : Buffer) : Prop :=
  b'.depth = 0 ∧
  ((b'.text = b.text ∧ b'.undoable = b.undoable ∧ b'.redoable = b.redoable) ∨
    ((∃ group, group ≠ [] ∧ b'.undoable = group :: b.undoable) ∧ b'.redoable = [] ∧
      ∃ u r, b'.undo? = some u ∧ u.text = b.text ∧ u.redo? = some r ∧ r.text = b'.text))

/-- Closing the only open group, after the edits `es` were made in it. -/
theorem endGroup_extends {b b' : Buffer} {es : List Edit} (hd : b.depth = 0)
    (h : b.beginGroup.Extends es b') : AtMostOneChange b b'.endGroup := by
  have hpending : b'.pending = es := by simpa [Buffer.beginGroup, hd] using h.pending
  have hdepth : b'.depth = 1 := by simpa [Buffer.beginGroup, hd] using h.depth
  have hturn : Edits.Turn es b.text b'.text := h.turn
  cases es with
  | nil =>
    -- a group without edits is dropped, and the edits to redo are kept
    have hend : b'.endGroup = { b' with depth := 0 } := by
      simp [Buffer.endGroup, hdepth, hpending]
    rw [hend]
    exact ⟨rfl, Or.inl ⟨hturn.eq_of_nil.symm, h.undoable, h.redoable⟩⟩
  | cons e es =>
    have hend : b'.endGroup
        = { b' with depth := 0, undoable := (e :: es) :: b.undoable, pending := [] } := by
      have hundo : b'.undoable = b.undoable := h.undoable
      simp [Buffer.endGroup, hdepth, hpending, hundo]
    rw [hend]
    refine ⟨rfl, Or.inr ⟨⟨e :: es, List.cons_ne_nil _ _, rfl⟩, h.redoable, ?_⟩⟩
    obtain ⟨u, hu, hutext, -, -, hredo, -, hdu⟩ := Buffer.undo?_of_turn (b := { b' with
      depth := 0, undoable := (e :: es) :: b.undoable, pending := [] }) rfl rfl hturn
    obtain ⟨r, hr, hrtext, -⟩ := Buffer.redo?_of_turn hdu hredo (hutext.symm ▸ hturn)
    exact ⟨u, r, hu, hutext, hr, hrtext⟩

theorem grouped_atMostOneChange {f : Step} (hf : f.Recorded) {w : Work} (hd : w.buffer.depth = 0) :
    AtMostOneChange w.buffer (grouped f w).work.buffer := by
  obtain ⟨es, hes⟩ := hf { w with buffer := w.buffer.beginGroup } (Nat.succ_pos _)
  exact endGroup_extends hd hes

/-- **Applying a toggle is one undo step on every exit path:** for every language and every entry,
    with a target or without, whatever its job and its visibility, and at whatever point the owner
    of the buffer stops accepting replacements. -/
theorem apply_atMostOneChange (ed : Editor) (action : Action) (w : Work)
    (hd : w.buffer.depth = 0) : AtMostOneChange w.buffer (ed.apply action w).work.buffer := by
  cases htarget : action.target with
  | none =>
    simp only [apply, htarget]
    exact ⟨hd, Or.inl ⟨rfl, rfl, rfl⟩⟩
  | some s =>
    simp only [apply, htarget]
    refine grouped_atMostOneChange ?_ hd
    exact ((runJob_recorded _ _ _ _ _).mapError _).andThen <|
      ((normalize_recorded _ _).mapError _).andThen (report_recorded _ _)

/-- A final method in a buffer that accepts one replacement. -/
def refusingWork : Work :=
  { buffer := Buffer.ofText (utf8 "@:final function f() \x7b\x7d"), writesLeft := some 1 }

/-- The entry that makes the method static, which takes two replacements: "final" has to go. -/
def makeMethodStatic : Action where
  label := utf8 "Add static modifier"
  job := .addStatic
  target := refusingWork.buffer.inspect? (Language.haxe {})
    { enclosing := { declaration := { name := utf8 "A", lineFrom := 0, lineTo := 0 } }
      member := some { name := utf8 "f", lineFrom := 0, lineTo := 0, flags := .function } }

/-- Refused between its two replacements, the toggle is still one undo step. -/
theorem apply_atMostOneChange_refused :
    refusingWork.buffer.depth = 0 ∧ makeMethodStatic.target.isSome ∧
    ((Editor.mk (Language.haxe {}) none).apply makeMethodStatic refusingWork).error.isSome ∧
    ((Editor.mk (Language.haxe {}) none).apply makeMethodStatic refusingWork).work.buffer.text
      = utf8 "function f() \x7b\x7d" ∧
    AtMostOneChange refusingWork.buffer
      ((Editor.mk (Language.haxe {}) none).apply makeMethodStatic refusingWork).work.buffer := by
  refine ⟨rfl, by decide, by decide, by decide, ?_⟩
  exact apply_atMostOneChange (Editor.mk (Language.haxe {}) none) makeMethodStatic refusingWork rfl

end Editor

end ModifierToggle
