import ModifierToggle.Editor.Step

set_option autoImplicit false

/-! # Editing declarations

The edits behind the menu entries. Each primitive edit changes one line of the span it is given.
`normalize` then restores the canonical layout of the header: the token for "final" at the start of
its line, the visibility first among the modifiers, the token for "inline" directly before the
keyword, completion metadata at the start of its line. Applying a toggle is an edit followed by
`normalize`, recorded as one group, so that it is undone as a whole. -/

namespace ModifierToggle

/-- What an editor works with: the language, and the toggle in the course of which it edits. -/
structure Editor where
  lang : Language
  scope : Option ToggleScope := none
  deriving Repr, DecidableEq

namespace Editor

/-! ## Primitive edits -/

/-- Give a declaration of a kind a visibility: replace the visibility keyword it has, or drop it
    when the new visibility goes without saying, or else insert a keyword. -/
def changeAccess (ed : Editor) (span : Span) (kind : Kind) (vis : Text) : Step :=
  let keyword := ed.lang.visibilityKeyword kind vis
  Step.editLine ed.scope span (LineEdit.replaceVisibility ed.lang keyword)
    (if keyword.isEmpty then Step.skip
     else Step.editLine ed.scope span (LineEdit.insertVisibility ed.lang keyword))

/-- Put a token directly before the keyword of the declaration. -/
def addToken (ed : Editor) (span : Span) (tok : Token) : Step :=
  Step.editLine ed.scope span (LineEdit.addToken ed.lang tok)

/-- Remove the first occurrence of a token. -/
def removeToken (ed : Editor) (span : Span) (tok : Token) : Step :=
  Step.editLine ed.scope span (LineEdit.removeToken ed.lang tok)

/-- Whether removing a token breaks down: the occurrence to remove passes the end of its line. That
    takes a keyword with the replacement character, and stray bytes in the text. -/
def removalBreaksDown (ed : Editor) (span : Span) (tok : Token) (b : Buffer) : Bool :=
  ((b.codeLines span).findSome? fun l =>
    (tok.find? (l.searchable ed.lang)).map fun at_ => decide (l.text.length < at_.stop)).getD false

/-- Add a modifier, if the language has it. -/
def addModifier (ed : Editor) (span : Span) (m : Modifier) : Step :=
  match ed.lang.token? m with
  | some tok => ed.addToken span tok
  | none => Step.report ed.scope (.noSuchModifier m)

/-- Remove a modifier, if the language has it. -/
def removeModifier (ed : Editor) (span : Span) (m : Modifier) : Step :=
  match ed.lang.token? m with
  | some tok => ed.removeToken span tok
  | none => Step.skip

/-! ## The canonical layout -/

/-- Move the visibility keyword to the front of the modifiers. -/
def fixOrder (ed : Editor) (span : Span) : Step :=
  Step.editLine ed.scope span (LineEdit.orderModifiers ed.lang)

/-- Put the token of a modifier into its place. -/
def fixPlacement (ed : Editor) (m : Modifier) (span : Span) : Step :=
  match ed.lang.token? m with
  | none => Step.skip
  | some tok =>
    match LineEdit.place? ed.lang tok with
    | none => Step.skip
    | some r => Step.editLine ed.scope span r (Step.report ed.scope (.nothingToMove tok.keyword))

/-- Restore the canonical layout of a header. -/
def normalize (ed : Editor) (span : Span) : Step :=
  (ed.fixPlacement .final span).andThen <|
  (if ed.lang.startWithModifiers then ed.fixOrder span else Step.skip).andThen <|
  (ed.fixPlacement .inlined span).andThen <|
  ed.fixPlacement .noCompletion span

/-! ## Applying a toggle -/

/-- The edit a job stands for. A method that becomes static cannot stay final. -/
def runJob (ed : Editor) (span : Span) (kind : Kind) (vis : Text) : Job → Step
  | .changeAccess => ed.changeAccess span kind vis
  | .makeClassFinal | .makeMethodFinal => ed.addModifier span .final
  | .makeClassNotFinal | .makeMethodNotFinal => ed.removeModifier span .final
  | .makeClassExternal => ed.addModifier span .external
  | .makeClassNotExternal => ed.removeModifier span .external
  | .addStatic =>
    (if kind = .method then ed.removeModifier span .final else Step.skip).andThen <|
    ed.addModifier span .static
  | .removeStatic => ed.removeModifier span .static
  | .addInline => ed.addModifier span .inlined
  | .removeInline => ed.removeModifier span .inlined
  | .addNoCompletion => ed.addModifier span .noCompletion
  | .removeNoCompletion => ed.removeModifier span .noCompletion
  | .unknown number => fun w => { work := w, error := some (.unknownJob number) }

/-- Take a step inside an undo group, whether or not it fails. -/
def grouped (f : Step) : Step := fun w =>
  let o := f { w with buffer := w.buffer.beginGroup }
  { o with work := { o.work with buffer := o.work.buffer.endGroup } }

/-- Apply a menu entry: do its job, then restore the canonical layout, as one undo group. -/
def apply (ed : Editor) (action : Action) : Step :=
  match action.target with
  | none => fun w => { work := w, error := some (.noTarget action.label) }
  | some s =>
    let ed : Editor := { ed with scope := some ⟨action.job.name, s.target.name, s.span⟩ }
    let change := ed.runJob s.span s.kind action.visibility action.job
    grouped <|
      (change.mapError (.applying action.job)).andThen
      <| ((ed.normalize s.span).mapError (.normalizing action.job)).andThen
      <| Step.report ed.scope .appliedToggle

end Editor

end ModifierToggle
