import ModifierToggle.Proofs.CheckedLineEdits

set_option autoImplicit false

/-! # The editor with checked bounds

The steps of the editor, made of line edits with checked bounds. They are the same as those of the
editor itself, and as long as the text accepts replacements they do not fail (`Checked.Safe`): every
replacement is one inside the text. -/

namespace ModifierToggle

namespace Checked

/-! ## Steps -/

/-- The shortest replacement that turns `old` into `new`: its ends, and what goes between them. -/
def splice (old new : Text) : Except BoundsError (Int × Int × Text) := do
  let start := Text.commonFront old new
  let oldRest ← onward old start
  let newRest ← onward new start
  let tail := Text.commonFront oldRest.reverse newRest.reverse
  let mid ← slice new start (new.length - tail)
  pure (start, old.length - tail, mid)

/-- An editing step. -/
abbrev Step := Work → Except BoundsError Outcome

/-- A step that takes no slices. -/
def lift (f : ModifierToggle.Step) : Step := fun w => pure (f w)

/-- The first line that is taken, with its new text. Empty lines are never taken. -/
def first? (r : LineEdit) : List CodeLine → Except BoundsError (Option (CodeLine × Text))
  | [] => pure none
  | l :: rest =>
    if l.text.isEmpty then first? r rest
    else do
      match ← r l with
      | some new => pure (some (l, new))
      | none => first? r rest

/-- Give a line a new text. -/
def setLine (scope : Option ToggleScope) (l : CodeLine) (new : Text) : Step := fun w =>
  if new = l.text then pure { work := w }
  else do
    let (start, stop, mid) ← splice l.text new
    let base := w.buffer.lineStart l.number
    match w.replaceRange (base + start) (base + stop) mid with
    | .error cause => pure { work := w, error := some (.changingLine l.number cause) }
    | .ok w => pure { work := w.report scope (.changedLine l.number l.text new) }

/-- Change the first line of a span that `r` takes; when it takes none, do `otherwise`. -/
def editLine (scope : Option ToggleScope) (span : Span) (r : LineEdit) (otherwise : Step) : Step :=
  fun w => do
    let lines ← codeLines w.buffer span
    match ← first? r lines with
    | some (l, new) => setLine scope l new w
    | none => otherwise w

/-- Take a step and, unless it fails, another. -/
def andThen (f g : Step) : Step := fun w => do
  let o ← f w
  if o.error.isSome then pure o else g o.work

/-- Take a step, with its error, if it fails, put into context. -/
def mapError (f : Step) (context : EditError → EditError) : Step := fun w => do
  let o ← f w
  pure { o with error := o.error.map context }

/-- Take a step inside an undo group. -/
def grouped (f : Step) : Step := fun w => do
  let o ← f { w with buffer := w.buffer.beginGroup }
  pure { o with work := { o.work with buffer := o.work.buffer.endGroup } }

/-! ## The editor -/

section

variable (ed : Editor) (span : Span)

/-- Replace the visibility keyword, or insert one where there is none. -/
def changeAccess (kind : Kind) (vis : Text) : Step :=
  let keyword := ed.lang.visibilityKeyword kind vis
  editLine ed.scope span (replaceVisibility ed.lang keyword)
    (if keyword.isEmpty then lift .skip
     else editLine ed.scope span (insertVisibility ed.lang keyword) (lift .skip))

/-- Put a token directly before the keyword of the declaration. -/
def addTokenTo (tok : Token) : Step := editLine ed.scope span (addToken ed.lang tok) (lift .skip)

/-- Remove the first occurrence of a token. -/
def removeTokenFrom (tok : Token) : Step :=
  editLine ed.scope span (removeToken ed.lang tok) (lift .skip)

/-- Add a modifier; one that the language does not have is only reported. -/
def addModifier (m : Modifier) : Step :=
  match ed.lang.token? m with
  | some tok => addTokenTo ed span tok
  | none => lift (.report ed.scope (.noSuchModifier m))

/-- Remove a modifier, if the language has it. -/
def removeModifier (m : Modifier) : Step :=
  match ed.lang.token? m with
  | some tok => removeTokenFrom ed span tok
  | none => lift .skip

/-- Move the visibility keyword to the front of the modifiers. -/
def fixOrder : Step := editLine ed.scope span (orderModifiers ed.lang) (lift .skip)

/-- Put the token of a modifier into its place; a token that may stand anywhere stays. -/
def fixPlacement (m : Modifier) : Step :=
  match ed.lang.token? m with
  | none => lift .skip
  | some tok =>
    match place? ed.lang tok with
    | none => lift .skip
    | some r => editLine ed.scope span r (lift (.report ed.scope (.nothingToMove tok.keyword)))

/-- Restore the canonical layout of a header: every placement, and the order of the modifiers. -/
def normalize : Step :=
  andThen (fixPlacement ed span .final) <|
  andThen (if ed.lang.startWithModifiers then fixOrder ed span else lift .skip) <|
  andThen (fixPlacement ed span .inlined) (fixPlacement ed span .noCompletion)

/-- The edit a job stands for. The only job that fails is one that is not known. -/
def runJob (kind : Kind) (vis : Text) : Job → Step
  | .changeAccess => changeAccess ed span kind vis
  | .makeClassFinal | .makeMethodFinal => addModifier ed span .final
  | .makeClassNotFinal | .makeMethodNotFinal => removeModifier ed span .final
  | .makeClassExternal => addModifier ed span .external
  | .makeClassNotExternal => removeModifier ed span .external
  | .addStatic =>
    andThen (if kind = .method then removeModifier ed span .final else lift .skip)
      (addModifier ed span .static)
  | .removeStatic => removeModifier ed span .static
  | .addInline => addModifier ed span .inlined
  | .removeInline => removeModifier ed span .inlined
  | .addNoCompletion => addModifier ed span .noCompletion
  | .removeNoCompletion => removeModifier ed span .noCompletion
  | .unknown number => lift fun w => { work := w, error := some (.unknownJob number) }

/-- Apply a menu entry: do its job, then restore the layout, as one undo group. -/
def apply (action : Action) : Step :=
  match action.target with
  | none => lift fun w => { work := w, error := some (.noTarget action.label) }
  | some s =>
    let ed : Editor := { ed with scope := some ⟨action.job.name, s.target.name, s.span⟩ }
    grouped <|
      andThen (mapError (runJob ed s.span s.kind action.visibility action.job)
        (.applying action.job)) <|
      andThen (mapError (normalize ed s.span) (.normalizing action.job))
        (lift (.report ed.scope .appliedToggle))

end

/-! ## No slice fails -/

theorem splice_eq (old new : Text) :
    splice old new = .ok ((Splice.between old new).start, (Splice.between old new).stop,
      (Splice.between old new).new) := by
  obtain ⟨front, old', new', rfl, rfl, hfront⟩ := Text.commonFront_spec old new
  obtain ⟨back, oldRest, newRest, hold, hnew, hback⟩ :=
    Text.commonFront_spec old'.reverse new'.reverse
  have hlength := congrArg List.length hold
  have hlength' := congrArg List.length hnew
  rw [List.length_reverse, List.length_append] at hlength hlength'
  rw [splice, Splice.between, ← hfront, onward_eq (by simp), ok_bind, onward_eq (by simp), ok_bind,
    List.drop_left, List.drop_left, ← hback]
  have hold' : back.length ≤ (front ++ old').length := by
    rw [List.length_append]
    omega
  have hnew' : front.length ≤ (front ++ new').length - back.length := by
    rw [List.length_append]
    omega
  have htail : back.length ≤ (front ++ new').length := by
    rw [List.length_append]
    omega
  simp only [← Int.ofNat_sub htail, ← Int.ofNat_sub hold']
  rw [slice_eq hnew' (Nat.sub_le _ _), ok_bind]
  rfl

/-- The step takes no slice that fails, and does not fail itself, as long as replacements are
    accepted. -/
def Safe (f' : Step) (f : ModifierToggle.Step) : Prop :=
  ∀ w : Work, w.writesLeft = none →
    f' w = .ok (f w) ∧ (f w).error = none ∧ (f w).work.writesLeft = none

theorem first?_eq {r' : LineEdit} {r : ModifierToggle.LineEdit} {lines : List CodeLine}
    (hr : ∀ l ∈ lines, r' l = .ok (r l)) : first? r' lines = .ok (r.first? lines) := by
  induction lines with
  | nil => rfl
  | cons l lines ih =>
    have hrest := ih fun l' hl' => hr l' (List.mem_cons_of_mem _ hl')
    rw [first?, LineEdit.first?, List.findSome?_cons]
    by_cases hempty : l.text.isEmpty = true
    · rw [if_pos hempty, if_pos hempty, hrest]
      rfl
    · rw [if_neg hempty, if_neg hempty, hr l List.mem_cons_self, ok_bind]
      cases r l with
      | none => exact hrest
      | some new => rfl

theorem setLine_eq (scope : Option ToggleScope) (l : CodeLine) (new : Text) (w : Work) :
    setLine scope l new w = .ok (Step.setLine scope l new w) := by
  unfold setLine Step.setLine
  split
  · rfl
  · rw [splice_eq, ok_bind]
    simp only [Int.natCast_add]
    cases w.replaceRange (w.buffer.lineStart l.number + (Splice.between l.text new).start)
      (w.buffer.lineStart l.number + (Splice.between l.text new).stop)
      (Splice.between l.text new).new <;> rfl

namespace Safe

variable {f' g' : Step} {f g : ModifierToggle.Step}

theorem skip : Safe (lift .skip) .skip := fun _ hw => ⟨rfl, rfl, hw⟩

theorem report (scope : Option ToggleScope) (e : Event) :
    Safe (lift (.report scope e)) (.report scope e) := fun _ hw => ⟨rfl, rfl, hw⟩

theorem andThen (hf : Safe f' f) (hg : Safe g' g) : Safe (andThen f' g') (f.andThen g) := by
  intro w hw
  obtain ⟨hsame, herror, hw'⟩ := hf w hw
  simp only [Checked.andThen, Step.andThen, hsame, ok_bind, herror, Option.isSome_none,
    Bool.false_eq_true, if_false]
  exact hg _ hw'

theorem mapError (hf : Safe f' f) (context : EditError → EditError) :
    Safe (mapError f' context) (f.mapError context) := by
  intro w hw
  obtain ⟨hsame, herror, hw'⟩ := hf w hw
  simp only [Checked.mapError, Step.mapError, hsame, ok_bind, herror]
  exact ⟨rfl, rfl, hw'⟩

theorem grouped (hf : Safe f' f) : Safe (grouped f') (Editor.grouped f) := by
  intro w hw
  obtain ⟨hsame, herror, hw'⟩ := hf { w with buffer := w.buffer.beginGroup } hw
  simp only [Checked.grouped, Editor.grouped, hsame, ok_bind]
  exact ⟨rfl, herror, hw'⟩

theorem ite {c : Prop} [Decidable c] (hf : Safe f' f) (hg : Safe g' g) :
    Safe (if c then f' else g') (if c then f else g) := by
  split
  · exact hf
  · exact hg

/-- An edit of a line, if the line edit takes no slice that fails. -/
theorem editLine (scope : Option ToggleScope) (span : Span) {r' : LineEdit}
    {r : ModifierToggle.LineEdit} (hr : ∀ b : Buffer, ∀ l ∈ b.codeLines span, r' l = .ok (r l))
    (hf : Safe f' f) : Safe (editLine scope span r' f') (Step.editLine scope span r f) := by
  intro w hw
  rw [Checked.editLine, Step.editLine, codeLines_eq, ok_bind, first?_eq (hr w.buffer), ok_bind]
  cases hfirst : r.first? (w.buffer.codeLines span) with
  | none => exact hf w hw
  | some taken =>
    obtain ⟨l, new⟩ := taken
    obtain ⟨l', hl, htaken⟩ := List.exists_of_findSome?_eq_some hfirst
    obtain rfl : l' = l := by
      split at htaken
      · cases htaken
      · obtain ⟨new', -, heq⟩ := Option.map_eq_some_iff.1 htaken
        exact (Prod.mk.inj heq).1
    obtain ⟨before, after, -, -, hset⟩ := Buffer.exists_setLine hl
    exact ⟨setLine_eq scope l' new w, (hset scope new w rfl (by simp [hw])).1,
      Step.setLine_writesLeft scope l' new hw⟩

end Safe

section

variable {name base : Text} {opts : LanguageOptions} {lang : Language}
  (hbuild : Language.build name base opts = .ok lang) (scope : Option ToggleScope) (span : Span)

include hbuild

theorem changeAccess_safe (kind : Kind) (vis : Text) :
    Safe (changeAccess ⟨lang, scope⟩ span kind vis)
      (Editor.changeAccess ⟨lang, scope⟩ span kind vis) := by
  refine .editLine scope span (fun b l hl => replaceVisibility_eq (Buffer.aligned hbuild hl) _) ?_
  exact .ite .skip (.editLine scope span (fun b l _ => insertVisibility_eq _) .skip)

theorem addTokenTo_safe (tok : Token) :
    Safe (addTokenTo ⟨lang, scope⟩ span tok) (Editor.addToken ⟨lang, scope⟩ span tok) :=
  .editLine scope span (fun _ _ hl => addToken_eq (Buffer.aligned hbuild hl) tok) .skip

theorem removeTokenFrom_safe {tok : Token} (htok : tok ∈ lang.tokens) :
    Safe (removeTokenFrom ⟨lang, scope⟩ span tok) (Editor.removeToken ⟨lang, scope⟩ span tok) :=
  .editLine scope span (fun _ _ hl => removeToken_eq (Buffer.aligned hbuild hl) htok) .skip

theorem addModifier_safe (m : Modifier) :
    Safe (addModifier ⟨lang, scope⟩ span m) (Editor.addModifier ⟨lang, scope⟩ span m) := by
  unfold addModifier Editor.addModifier
  cases lang.token? m with
  | none => exact .report _ _
  | some tok => exact addTokenTo_safe hbuild scope span tok

theorem removeModifier_safe (m : Modifier) :
    Safe (removeModifier ⟨lang, scope⟩ span m) (Editor.removeModifier ⟨lang, scope⟩ span m) := by
  unfold removeModifier Editor.removeModifier
  cases htok : lang.token? m with
  | none => exact .skip
  | some tok => exact removeTokenFrom_safe hbuild scope span (List.mem_of_find?_eq_some htok)

theorem fixOrder_safe : Safe (fixOrder ⟨lang, scope⟩ span) (Editor.fixOrder ⟨lang, scope⟩ span) :=
  .editLine scope span (fun _ _ hl => orderModifiers_eq (Buffer.aligned hbuild hl)) .skip

theorem fixPlacement_safe (m : Modifier) :
    Safe (fixPlacement ⟨lang, scope⟩ span m) (Editor.fixPlacement ⟨lang, scope⟩ m span) := by
  unfold fixPlacement Editor.fixPlacement
  cases htok : lang.token? m with
  | none => exact .skip
  | some tok =>
    have hmem := List.mem_of_find?_eq_some htok
    cases hplacement : tok.placement with
    | free =>
      simp only [place?, LineEdit.place?, hplacement]
      exact .skip
    | lineStart =>
      simp only [place?, LineEdit.place?, hplacement]
      exact .editLine scope span
        (fun _ _ hl => moveToLineStart_eq (Buffer.aligned hbuild hl) hmem) (.report _ _)
    | beforeKeyword =>
      simp only [place?, LineEdit.place?, hplacement]
      exact .editLine scope span
        (fun _ _ hl => moveBeforeKeyword_eq (Buffer.aligned hbuild hl) hmem) (.report _ _)

theorem normalize_safe :
    Safe (normalize ⟨lang, scope⟩ span) (Editor.normalize ⟨lang, scope⟩ span) := by
  have hplacement := fixPlacement_safe hbuild scope span
  exact (hplacement .final).andThen <|
    (Safe.ite (fixOrder_safe hbuild scope span) .skip).andThen <|
    (hplacement .inlined).andThen (hplacement .noCompletion)

theorem runJob_safe (kind : Kind) (vis : Text) {job : Job} (hjob : ∀ n, job ≠ .unknown n) :
    Safe (runJob ⟨lang, scope⟩ span kind vis job)
      (Editor.runJob ⟨lang, scope⟩ span kind vis job) := by
  have hadd := addModifier_safe hbuild scope span
  have hremove := removeModifier_safe hbuild scope span
  cases job with
  | changeAccess => exact changeAccess_safe hbuild scope span kind vis
  | addStatic => exact (Safe.ite (hremove .final) .skip).andThen (hadd .static)
  | makeClassFinal | makeMethodFinal | makeClassExternal | addInline | addNoCompletion =>
    exact hadd _
  | makeClassNotFinal | makeMethodNotFinal | makeClassNotExternal | removeStatic | removeInline
  | removeNoCompletion => exact hremove _
  | unknown number => exact absurd rfl (hjob number)

theorem apply_safe {action : Action} {target : Inspection} (htarget : action.target = some target)
    (hjob : ∀ n, action.job ≠ .unknown n) :
    Safe (apply ⟨lang, scope⟩ action) (Editor.apply ⟨lang, scope⟩ action) := by
  unfold apply Editor.apply
  simp only [htarget]
  exact .grouped <|
    (Safe.mapError (runJob_safe hbuild _ _ _ _ hjob) _).andThen <|
    (Safe.mapError (normalize_safe hbuild _ _) _).andThen (.report _ _)

end

end Checked

namespace Editor

/-- **No edit goes out of bounds.** Take a table that can be built, whatever its settings, any text
    and any two numbers for a span. No slice of any edit of a declaration fails, every replacement
    lies in the text, and so no edit fails; applying a menu entry fails only if the entry has no
    declaration or no job that is known. -/
theorem edits_stayInBounds {name base : Text} {opts : LanguageOptions} {lang : Language}
    (hbuild : Language.build name base opts = .ok lang) (scope : Option ToggleScope)
    (span : Span) :
    let ed : Editor := ⟨lang, scope⟩
    (∀ kind vis,
      Checked.Safe (Checked.changeAccess ed span kind vis) (ed.changeAccess span kind vis)) ∧
    (∀ tok ∈ lang.tokens,
      Checked.Safe (Checked.addTokenTo ed span tok) (ed.addToken span tok) ∧
      Checked.Safe (Checked.removeTokenFrom ed span tok) (ed.removeToken span tok)) ∧
    Checked.Safe (Checked.fixOrder ed span) (ed.fixOrder span) ∧
    (∀ m, Checked.Safe (Checked.fixPlacement ed span m) (ed.fixPlacement m span)) ∧
    Checked.Safe (Checked.normalize ed span) (ed.normalize span) ∧
    ∀ (action : Action) (w : Work), w.writesLeft = none →
      Checked.apply ed action w = .ok (ed.apply action w) ∧
      (ed.apply action w).error =
        match action.target, action.job with
        | none, _ => some (.noTarget action.label)
        | some _, .unknown number => some (.applying (.unknown number) (.unknownJob number))
        | some _, _ => none := by
  intro ed
  refine ⟨Checked.changeAccess_safe hbuild scope span, fun tok htok =>
    ⟨Checked.addTokenTo_safe hbuild scope span tok,
      Checked.removeTokenFrom_safe hbuild scope span htok⟩,
    Checked.fixOrder_safe hbuild scope span, Checked.fixPlacement_safe hbuild scope span,
    Checked.normalize_safe hbuild scope span, fun action w hw => ?_⟩
  cases htarget : action.target with
  | none =>
    constructor
    · simp only [Checked.apply, apply, htarget]
      rfl
    · simp only [apply, htarget]
  | some target =>
    by_cases hjob : ∀ n, action.job ≠ .unknown n
    · obtain ⟨hsame, herror, -⟩ := Checked.apply_safe hbuild scope htarget hjob w hw
      refine ⟨hsame, herror.trans ?_⟩
      split
      · next hnone => cases hnone
      · next number _ hnumber => exact absurd hnumber (hjob number)
      · rfl
    · obtain ⟨number, hnumber⟩ := not_forall_not.1 hjob
      constructor
      · simp only [Checked.apply, apply, htarget, hnumber]
        rfl
      · simp only [apply, htarget, hnumber]
        rfl

/-- Settings with access names that are spelled like a keyword, or match stray bytes. -/
def oddAccess : LanguageOptions :=
  { startWithModifiers := true, customAccess := [utf8 "class", utf8 "x\uFFFD"] }

/-- A header behind a comment that ends on its line, with a stray byte in an access name. -/
def strayWork : Work :=
  { buffer := Buffer.ofText
      (utf8 "/* static\n */\tx" ++ [0xFF] ++ utf8 " static final function f() \x7b\x7d") }

/-- A span that begins above the text and ends below it. -/
theorem edits_stayInBounds_stray :
    Language.build [] (utf8 "as3") oddAccess = .ok (Language.actionScript3 oddAccess) ∧
    strayWork.writesLeft = none ∧
    Checked.changeAccess ⟨Language.actionScript3 oddAccess, none⟩ ⟨-2, 7⟩ .method (utf8 "public")
        strayWork
      = .ok (changeAccess ⟨Language.actionScript3 oddAccess, none⟩ ⟨-2, 7⟩ .method (utf8 "public")
        strayWork) ∧
    (changeAccess ⟨Language.actionScript3 oddAccess, none⟩ ⟨-2, 7⟩ .method (utf8 "public")
      strayWork).work.buffer.text
      = utf8 "/* static\n */\tpublic static final function f() \x7b\x7d" ∧
    Checked.normalize ⟨Language.actionScript3 oddAccess, none⟩ ⟨-2, 7⟩ strayWork
      = .ok (normalize ⟨Language.actionScript3 oddAccess, none⟩ ⟨-2, 7⟩ strayWork) ∧
    (normalize ⟨Language.actionScript3 oddAccess, none⟩ ⟨-2, 7⟩ strayWork).error = none := by
  have hbuild : Language.build [] (utf8 "as3") oddAccess
      = .ok (Language.actionScript3 oddAccess) := by decide
  obtain ⟨haccess, -, -, -, hnormalize, -⟩ := edits_stayInBounds hbuild none ⟨-2, 7⟩
  exact ⟨hbuild, rfl, (haccess .method (utf8 "public") strayWork rfl).1, by decide,
    (hnormalize strayWork rfl).1, (hnormalize strayWork rfl).2.1⟩

end Editor

end ModifierToggle
