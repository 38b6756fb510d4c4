import ModifierToggle.Editor.Basic

set_option autoImplicit false

/-! # Toggles at the cursor

What an editing host gets when it asks for the toggles at its cursor. Where there is nothing to
offer the answer is that there are no entries, never an error. -/

namespace ModifierToggle

/-- What a host shows of itself: the language of the project, the buffer, and the model of the
    file. -/
structure Host where
  language : Text
  buffer : Option Buffer
  model : Option FileModel
  deriving Repr, DecidableEq

/-- An entry with the language it was built for. -/
structure MenuItem where
  action : Action
  lang : Language
  deriving Repr, DecidableEq

/-- Apply the entry. -/
def MenuItem.invoke (item : MenuItem) : Step := Editor.apply { lang := item.lang } item.action

namespace Host

/-- The declaration under the cursor, if the cursor is on its header. -/
def declaration? (lang : Language) (b : Buffer) (model : FileModel) : Option Found :=
  (model.locate? (b.lineAt b.cursor)).filter fun found => b.cursorOnHeader lang found.target

/-- The entries for the declaration under the cursor; `none` when there are none. -/
def contextual? (registry : Registry) (h : Host) : Option (List MenuItem) := do
  let lang ← registry.lookup? h.language
  let b ← h.buffer
  let model ← h.model
  let found ← declaration? lang b model
  let s ← b.inspect? lang found
  let actions := s.menu lang
  if actions.isEmpty then none else some (actions.map (⟨·, lang⟩))

/-- What asking for the entries reports. -/
def contextualEvents (registry : Registry) (h : Host) : List Event :=
  match registry.lookup? h.language with
  | none => [.unsupportedLanguage h.language]
  | some lang =>
    match h.buffer, h.model with
    | some b, some model =>
      match declaration? lang b model with
      | none =>
        (match model.locate? (b.lineAt b.cursor) with
          | some found =>
            if (b.findHeader? lang found.target.span).isNone then
              [.noDeclarationKeyword found.target.name]
            else []
          | none => [])
        ++ [.cursorOffHeader (b.lineAt b.cursor)]
      | some found =>
        b.inspectEvents lang (some found)
          ++ ((b.inspect? lang found).map (·.menuEvents lang)).getD []
    | _, _ => [.noFile]

end Host

end ModifierToggle
