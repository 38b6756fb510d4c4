import ModifierToggle.Inspection

set_option autoImplicit false

/-! # The menu of toggles

For an inspected declaration there is one entry per modifier its kind can have, which adds the
modifier or takes it away, and one entry per visibility it does not have. Visibilities come first,
in the order the language's settings ask for; names the settings do not mention follow in the order
of the table. -/

namespace ModifierToggle

/-- The edit behind a menu entry. -/
inductive Job where
  | changeAccess
  | makeClassFinal
  | makeClassNotFinal
  | makeClassExternal
  | makeClassNotExternal
  | makeMethodFinal
  | makeMethodNotFinal
  | addStatic
  | removeStatic
  | addInline
  | removeInline
  | addNoCompletion
  | removeNoCompletion
  /-- A number that stands for no edit. -/
  | unknown (number : Int)
  deriving Repr, DecidableEq

namespace Job

/-- The jobs that stand for an edit, in their fixed order. -/
def all : List Job :=
  [.changeAccess, .makeClassFinal, .makeClassNotFinal, .makeClassExternal, .makeClassNotExternal,
   .makeMethodFinal, .makeMethodNotFinal, .addStatic, .removeStatic, .addInline, .removeInline,
   .addNoCompletion, .removeNoCompletion]

/-- The job with a given number; the first has number 1. -/
def ofNumber (n : Int) : Job :=
  if n < 1 then .unknown n else (all[n.toNat - 1]?).getD (.unknown n)

/-- The name of a job. -/
def name : Job → Text
  | .changeAccess => utf8 "ChangeAccess"
  | .makeClassFinal => utf8 "MakeClassFinal"
  | .makeClassNotFinal => utf8 "MakeClassNotFinal"
  | .makeClassExternal => utf8 "MakeClassExtern"
  | .makeClassNotExternal => utf8 "MakeClassNotExtern"
  | .makeMethodFinal => utf8 "MakeMethodFinal"
  | .makeMethodNotFinal => utf8 "MakeMethodNotFinal"
  | .addStatic => utf8 "AddStaticModifier"
  | .removeStatic => utf8 "RemoveStaticModifier"
  | .addInline => utf8 "AddInlineModifier"
  | .removeInline => utf8 "RemoveInlineModifier"
  | .addNoCompletion => utf8 "AddNoCompletionMeta"
  | .removeNoCompletion => utf8 "RemoveNoCompletionMeta"
  | .unknown _ => utf8 "Unknown"

end Job

/-- One menu entry. -/
structure Action where
  label : Text
  job : Job
  /-- The declaration to edit. -/
  target : Option Inspection
  /-- The visibility asked for, when the job is to change it. -/
  visibility : Text := []
  /-- The place among the entries that change the visibility. -/
  sortIndex : Nat := 0
  deriving Repr, DecidableEq

namespace Action

/-- Put an entry behind all entries that do not come after it. -/
def insert (a : Action) : List Action → List Action
  | [] => [a]
  | b :: rest => if b.sortIndex ≤ a.sortIndex then b :: insert a rest else a :: b :: rest

/-- Order entries by their sort index, keeping the order of equals. -/
def sort (actions : List Action) : List Action :=
  actions.foldl (fun sorted a => a.insert sorted) []

end Action

namespace Inspection

/-- The names offered as visibilities for a declaration. -/
def visibilityNames (s : Inspection) (lang : Language) : List Text :=
  lang.visibilities s.kind ++ if s.kind = .classDecl then [] else lang.customAccess

/-- The entries that change the visibility, in the order of the table: one for each name, counted
    from `index` on, that is neither empty, nor the present visibility, nor among the names
    `seen`. -/
def visibilityEntries (s : Inspection) (lang : Language) (index : Nat) (seen : List Text) :
    List Text → List Action
  | [] => []
  | vis :: rest =>
    if vis.isEmpty || vis == s.visibility || seen.contains vis then
      s.visibilityEntries lang (index + 1) seen rest
    else
      { label := utf8 "Make " ++ vis, job := .changeAccess, target := some s, visibility := vis
        sortIndex := (lang.accessIndex? vis).getD (lang.accessOrder.length + index) }
        :: s.visibilityEntries lang (index + 1) (vis :: seen) rest

/-- The entries that change the visibility, in menu order. -/
def visibilityActions (s : Inspection) (lang : Language) : List Action :=
  Action.sort (s.visibilityEntries lang 0 [] (s.visibilityNames lang))

/-- The entry that takes a modifier away when the declaration has it, and adds it when not. -/
def toggle (s : Inspection) (m : Modifier) (removing adding : Text × Job) : Action :=
  let (label, job) := if s.has m then removing else adding
  { label, job, target := some s }

/-- The entries of a class: final and extern. -/
def classToggles (s : Inspection) (lang : Language) : List Action :=
  (if lang.supports .final .classDecl then
    [s.toggle .final (utf8 "Make not final", .makeClassNotFinal)
      (utf8 "Make final", .makeClassFinal)] else [])
  ++ (match lang.token? .external with
    | some tok =>
      if tok.appliesTo .classDecl then
        [s.toggle .external (utf8 "Make not " ++ tok.keyword, .makeClassNotExternal)
          (utf8 "Make " ++ tok.keyword, .makeClassExternal)]
      else []
    | none => [])

/-- The entries of a method or field: final, unless it is static, then static, inline and completion
    metadata. -/
def memberToggles (s : Inspection) (lang : Language) : List Action :=
  (if lang.supports .final s.kind && !s.has .static then
    [s.toggle .final (utf8 "Remove final", .makeMethodNotFinal)
      (utf8 "Add final", .makeMethodFinal)] else [])
  ++ (if lang.supports .static s.kind then
    [s.toggle .static (utf8 "Remove static modifier", .removeStatic)
      (utf8 "Add static modifier", .addStatic)] else [])
  ++ (if lang.supports .inlined s.kind then
    [s.toggle .inlined (utf8 "Remove inline modifier", .removeInline)
      (utf8 "Add inline modifier", .addInline)] else [])
  ++ (match lang.token? .noCompletion with
    | some tok =>
      if tok.appliesTo s.kind then
        [s.toggle .noCompletion (utf8 "Remove " ++ tok.keyword, .removeNoCompletion)
          (utf8 "Add " ++ tok.keyword, .addNoCompletion)]
      else []
    | none => [])

/-- The menu of an inspected declaration. -/
def menu (s : Inspection) (lang : Language) : List Action :=
  match s.kind with
  | .classDecl => s.visibilityActions lang ++ s.classToggles lang
  | .constructor => s.visibilityActions lang
  | .method | .field => s.visibilityActions lang ++ s.memberToggles lang
  | .none => []

/-- What building the menu reports. -/
def menuEvents (s : Inspection) (lang : Language) : List Event :=
  if s.kind = .none then [] else [.builtMenu s.kind (s.menu lang).length]

end Inspection

end ModifierToggle
