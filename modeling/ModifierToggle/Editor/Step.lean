import ModifierToggle.Editor.LineEdit
import ModifierToggle.Menu
import ModifierToggle.Text.Decimal

set_option autoImplicit false

/-! # Editing steps

A step works on a buffer, may fail, and reports what it does. A step that fails leaves the work as
it was at the point of failure, and steps after it are not taken. -/

namespace ModifierToggle

/-- Why an edit fails. -/
inductive EditError where
  | changingLine (line : Nat) (cause : RangeError)
  | noTarget (label : Text)
  | unknownJob (number : Int)
  | applying (job : Job) (cause : EditError)
  | normalizing (job : Job) (cause : EditError)
  deriving Repr, DecidableEq

namespace EditError

/-- The wording of the error. -/
def message : EditError → Text
  | .changingLine line cause =>
    utf8 "rewriting line " ++ Decimal.ofNat line ++ utf8 ": " ++ cause.message
  | .noTarget label => utf8 "toggle " ++ label.quoted ++ utf8 " has no target declaration"
  | .unknownJob number => utf8 "unknown job " ++ Decimal.ofInt number
  | .applying job cause => utf8 "applying " ++ job.name ++ utf8 ": " ++ cause.message
  | .normalizing job cause => utf8 "normalizing after " ++ job.name ++ utf8 ": " ++ cause.message

/-- Whether the error comes down to a range that is not one of the text. -/
def isOutOfRange : EditError → Bool
  | .changingLine _ _ => true
  | .applying _ cause | .normalizing _ cause => cause.isOutOfRange
  | _ => false

end EditError

/-- A buffer being edited, and what has been reported so far. -/
structure Work where
  buffer : Buffer
  /-- How many more replacements the owner of the buffer accepts; `none` for any number. -/
  writesLeft : Option Nat := none
  log : List LogEntry := []
  deriving Repr, DecidableEq

namespace Work

/-- Report an event. -/
def report (w : Work) (scope : Option ToggleScope) (e : Event) : Work :=
  { w with log := w.log ++ [⟨e, scope⟩] }

/-- Replace a range, if the owner of the buffer still accepts replacements. -/
def replaceRange (w : Work) (start stop : Int) (new : Text) : Except RangeError Work :=
  match w.writesLeft with
  | some 0 => .error .outOfBounds
  | some (n + 1) =>
    (w.buffer.replaceRange start stop new).map fun b => { w with buffer := b, writesLeft := some n }
  | none => (w.buffer.replaceRange start stop new).map fun b => { w with buffer := b }

end Work

/-- Where a step leads: the work after it, and the error if it fails. -/
structure Outcome where
  work : Work
  error : Option EditError := none
  deriving Repr, DecidableEq

/-- An editing step. -/
abbrev Step := Work → Outcome

namespace Step

/-- The step that does nothing. -/
def skip : Step := fun w => { work := w }

/-- The step that only reports an event. -/
def report (scope : Option ToggleScope) (e : Event) : Step := fun w => { work := w.report scope e }

/-- Take a step and, unless it fails, another. -/
def andThen (f g : Step) : Step := fun w =>
  let o := f w
  if o.error.isSome then o else g o.work

/-- Take a step, with its error, if it fails, put into context. -/
def mapError (f : Step) (context : EditError → EditError) : Step := fun w =>
  let o := f w
  { o with error := o.error.map context }

/-- Give a line a new text. Only the part of the line that changes is replaced, and a line that
    stays the same is left alone. -/
def setLine (scope : Option ToggleScope) (l : CodeLine) (new : Text) : Step := fun w =>
  if new = l.text then { work := w }
  else
    let s := Splice.between l.text new
    let base := w.buffer.lineStart l.number
    match w.replaceRange ((base + s.start : Nat) : Int) ((base + s.stop : Nat) : Int) s.new with
    | .error cause => { work := w, error := some (.changingLine l.number cause) }
    | .ok w => { work := w.report scope (.changedLine l.number l.text new) }

/-- Change the first line of a span that `r` takes; when it takes none, do `otherwise`. -/
def editLine (scope : Option ToggleScope) (span : Span) (r : LineEdit) (otherwise : Step := skip) :
    Step := fun w =>
  match r.first? (w.buffer.codeLines span) with
  | some (l, new) => setLine scope l new w
  | none => otherwise w

end Step

end ModifierToggle
