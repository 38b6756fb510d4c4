import ModifierToggle.Proofs.JobEffects

set_option autoImplicit false

/-! # Toggling

The menu of a declaration offers what makes sense for it (`Inspection.offers_of_mem_menu`). Applying
any of its entries to a header in its usual form succeeds, changes the words of the header line and
nothing else in the text, and inspecting the declaration once more shows what the entry is for
(`Editor.apply_menu_toggles`). -/

namespace ModifierToggle

/-! ## What the menu offers -/

theorem Action.insert_perm (a : Action) (actions : List Action) :
    (a.insert actions).Perm (a :: actions) := by
  induction actions with
  | nil => exact List.Perm.refl _
  | cons b rest ih =>
    rw [Action.insert]
    split
    · exact (ih.cons b).trans (List.Perm.swap a b rest)
    · exact List.Perm.refl _

theorem Action.sort_perm (actions : List Action) : (Action.sort actions).Perm actions := by
  have hfold : ∀ sorted : List Action,
      (actions.foldl (fun sorted a => a.insert sorted) sorted).Perm (sorted ++ actions) := by
    induction actions with
    | nil => exact fun sorted => by simp
    | cons a rest ih =>
      intro sorted
      refine (ih (a.insert sorted)).trans ?_
      exact ((a.insert_perm sorted).append_right rest).trans List.perm_middle.symm
  exact hfold []

theorem Job.Offered.ne_unknown {lang : Language} {has : Modifier → Bool} {vis : Text} {job : Job}
    (h : job.Offered lang has vis) (n : Int) : job ≠ .unknown n := by
  rintro rfl
  cases h with
  | adding hadds => cases hadds
  | removing hremoves => cases hremoves

theorem Job.Offered.isVisibility {lang : Language} {has : Modifier → Bool} {vis : Text} {job : Job}
    (h : job.Offered lang has vis) (haccess : job = .changeAccess) :
    lang.isVisibility vis = true := by
  cases h with
  | access hvis => exact hvis
  | adding hadds =>
    subst haccess
    cases hadds
  | removing hremoves =>
    subst haccess
    cases hremoves

namespace Inspection

variable {s : Inspection} {lang : Language} {a : Action}

/-- An entry that is for the declaration, and that makes sense for it. -/
def Offers (s : Inspection) (lang : Language) (a : Action) : Prop :=
  a.target = some s ∧ a.job.Offered lang s.has a.visibility

theorem isVisibility_of_mem {vis : Text} (h : vis ∈ s.visibilityNames lang) (hne : vis ≠ []) :
    lang.isVisibility vis = true := by
  rw [Language.isVisibility_iff, Language.mem_allVisibilities]
  refine ⟨?_, hne⟩
  rcases List.mem_append.1 h with hbuiltin | hcustom
  · unfold Language.visibilities at hbuiltin
    split at hbuiltin
    · exact Or.inr (Or.inl hbuiltin)
    · exact Or.inl hbuiltin
  · split at hcustom
    · cases hcustom
    · exact Or.inr (Or.inr hcustom)

theorem offers_of_mem_visibilityEntries {names : List Text} {index : Nat} {seen : List Text}
    (hnames : ∀ vis ∈ names, vis ≠ [] → lang.isVisibility vis = true)
    (h : a ∈ s.visibilityEntries lang index seen names) : s.Offers lang a := by
  induction names generalizing index seen with
  | nil => cases h
  | cons vis rest ih =>
    have hrest := fun v hv => hnames v (List.mem_cons_of_mem vis hv)
    rw [visibilityEntries] at h
    split at h
    · exact ih hrest h
    · next hskip =>
      rcases List.mem_cons.1 h with rfl | h
      · have hne : vis ≠ [] := by
          rintro rfl
          exact hskip rfl
        exact ⟨rfl, .access (hnames vis List.mem_cons_self hne)⟩
      · exact ih hrest h

theorem offers_of_mem_visibilityActions (h : a ∈ s.visibilityActions lang) : s.Offers lang a :=
  offers_of_mem_visibilityEntries (fun _ hv => isVisibility_of_mem hv)
    ((Action.sort_perm _).mem_iff.1 h)

/-- A toggle of a modifier of the language takes it away if it is there, and else adds it. -/
theorem offers_toggle {m : Modifier} {tok : Token} (htok : lang.token? m = some tok)
    {removing adding : Text × Job} (hremoves : removing.2.removes? = some m)
    (hadds : adding.2.adds? = some m) : s.Offers lang (s.toggle m removing adding) := by
  refine ⟨rfl, ?_⟩
  unfold toggle
  cases hhas : s.has m with
  | true => exact .removing hremoves
  | false => exact .adding hadds hhas htok

/-- A toggle that is there on some condition, which the language meets only if it has the
    modifier. -/
theorem offers_of_mem_supported {m : Modifier} {kind : Kind} {c : Bool}
    (hc : c = true → lang.supports m kind = true) {removing adding : Text × Job}
    (hremoves : removing.2.removes? = some m) (hadds : adding.2.adds? = some m)
    (h : a ∈ if c then [s.toggle m removing adding] else []) : s.Offers lang a := by
  split at h
  · next hcond =>
    have hsupports := hc hcond
    rw [List.mem_singleton.1 h]
    unfold Language.supports at hsupports
    cases htok : lang.token? m with
    | none =>
      rw [htok] at hsupports
      cases hsupports
    | some tok => exact offers_toggle htok hremoves hadds
  · cases h

/-- A toggle whose label spells the token. -/
theorem offers_of_mem_spelled {m : Modifier} {kind : Kind} {removing adding : Token → Text × Job}
    (hremoves : ∀ tok, (removing tok).2.removes? = some m)
    (hadds : ∀ tok, (adding tok).2.adds? = some m)
    (h : a ∈ match lang.token? m with
      | some tok => if tok.appliesTo kind then [s.toggle m (removing tok) (adding tok)] else []
      | none => []) : s.Offers lang a := by
  split at h
  · next tok htok =>
    split at h
    · rw [List.mem_singleton.1 h]
      exact offers_toggle htok (hremoves tok) (hadds tok)
    · cases h
  · cases h

theorem offers_of_mem_classToggles (h : a ∈ s.classToggles lang) : s.Offers lang a := by
  rcases List.mem_append.1 h with hfinal | hexternal
  · exact offers_of_mem_supported id rfl rfl hfinal
  · exact offers_of_mem_spelled (fun _ => rfl) (fun _ => rfl) hexternal

theorem offers_of_mem_memberToggles (h : a ∈ s.memberToggles lang) : s.Offers lang a := by
  unfold memberToggles at h
  simp only [List.mem_append] at h
  rcases h with ((hfinal | hstatic) | hinlined) | hcompletion
  · exact offers_of_mem_supported (fun hc => (Bool.and_eq_true_iff.1 hc).1) rfl rfl hfinal
  · exact offers_of_mem_supported id rfl rfl hstatic
  · exact offers_of_mem_supported id rfl rfl hinlined
  · exact offers_of_mem_spelled (fun _ => rfl) (fun _ => rfl) hcompletion

/-- **The menu offers what makes sense.** -/
theorem offers_of_mem_menu (h : a ∈ s.menu lang) : s.Offers lang a := by
  unfold menu at h
  split at h
  · exact (List.mem_append.1 h).elim offers_of_mem_visibilityActions offers_of_mem_classToggles
  · exact offers_of_mem_visibilityActions h
  · exact (List.mem_append.1 h).elim offers_of_mem_visibilityActions offers_of_mem_memberToggles
  · exact (List.mem_append.1 h).elim offers_of_mem_visibilityActions offers_of_mem_memberToggles
  · cases h

end Inspection

/-! ## What an entry does -/

/-- `s'` is what an inspection shows if the entry `a` does to the declaration what it is for, and
    nothing else. -/
structure Inspection.Toggled (s : Inspection) (a : Action) (s' : Inspection) : Prop where
  found : s'.found = s.found
  kind : s'.kind = s.kind
  line : s'.header.line = s.header.line
  visibility : s'.visibility = if a.job = .changeAccess then a.visibility else s.visibility
  has : ∀ m, s'.has m = (a.job.effect? s.kind m).getD (s.has m)

open HeaderWords (normalized afterJob others Once)

theorem HeaderFrame.offered_words {lang : Language} {f : HeaderFrame lang} {found : Found} {n : Nat}
    {ws : List Text} {a : Action} (ha : (f.inspection found n ws).Offers lang a) :
    a.job.Offered lang (HeaderWords.has lang ws) a.visibility := by
  rw [← funext (f.has_inspection found n ws)]
  exact ha.2

/-- What the job of an entry makes of the words, in the canonical layout, shows as toggled. -/
theorem HeaderFrame.inspection_toggled {lang : Language} (hlang : lang.Orderly)
    (f : HeaderFrame lang) (found : Found) (n : Nat) {ws : List Text} (honce : Once lang ws)
    {a : Action} (ha : (f.inspection found n ws).Offers lang a) :
    (f.inspection found n ws).Toggled a
      (f.inspection found n
        (normalized lang (afterJob lang found.kind a.visibility a.job ws))) := by
  have hperm := HeaderWords.normalized_perm lang (afterJob lang found.kind a.visibility a.job ws)
  have hjob := HeaderFrame.offered_words ha
  refine ⟨rfl, rfl, rfl, ?_, fun m => ?_⟩
  · calc HeaderWords.visibility lang found.kind
          (normalized lang (afterJob lang found.kind a.visibility a.job ws))
        = HeaderWords.visibility lang found.kind
            (afterJob lang found.kind a.visibility a.job ws) :=
          HeaderWords.visibility_perm (honce.afterJob hlang hjob) hperm found.kind
      _ = if a.job = .changeAccess then a.visibility
            else HeaderWords.visibility lang found.kind ws :=
          HeaderWords.visibility_afterJob honce hlang hjob
  · rw [f.has_inspection, f.has_inspection, HeaderWords.has_perm hperm]
    exact HeaderWords.has_afterJob honce hlang hjob m

namespace Editor

/-- **Toggles do what they are for.** In a table that can be built, with clean access names, take a
    declaration whose header is in its usual form, with each token at most once and at most one
    visibility, and about which the engine reports nothing of its own. Then it can be inspected, and
    whatever entry of its menu is applied, there is no error, only the words of the header line
    change, words that are neither tokens nor visibilities stay in their order, the header is of the
    usual form again, and inspection shows what the entry is for and otherwise what it showed
    before. -/
theorem apply_menu_toggles {name base : Text} {opts : LanguageOptions} {lang : Language}
    (hbuild : Language.build name base opts = .ok lang) (hclean : lang.CleanAccess)
    {found : Found} (hkind : found.kind ≠ .none) (hunmarked : found.Unmarked)
    {n : Nat} {f : HeaderFrame lang} {ws : List Text} (honce : Once lang ws)
    {w : Work} (hw : w.writesLeft = none) (hheader : w.buffer.HeaderAt found n f ws) :
    ∃ s, w.buffer.inspect? lang found = some s ∧
      ∀ a ∈ s.menu lang, ∀ scope : Option ToggleScope, ∃ vs s',
        (apply ⟨lang, scope⟩ a w).error = none ∧
        (apply ⟨lang, scope⟩ a w).work.buffer.text = w.buffer.withLine n (f.line vs) ∧
        vs = normalized lang (afterJob lang s.kind a.visibility a.job ws) ∧
        vs.Perm (afterJob lang s.kind a.visibility a.job ws) ∧
        others lang vs = others lang ws ∧
        Once lang vs ∧
        (apply ⟨lang, scope⟩ a w).work.buffer.HeaderAt found n f vs ∧
        (apply ⟨lang, scope⟩ a w).work.buffer.inspect? lang found = some s' ∧
        s.Toggled a s' := by
  have hlang := Language.build_orderly hbuild hclean
  refine ⟨f.inspection found n ws, hheader.inspect?_eq hlang.toRegular hkind hunmarked, ?_⟩
  intro a ha scope
  have hoffers := Inspection.offers_of_mem_menu ha
  have hjob := HeaderFrame.offered_words hoffers
  obtain ⟨vs, hvs⟩ : ∃ vs, vs = normalized lang
      (afterJob lang (f.inspection found n ws).kind a.visibility a.job ws) := ⟨_, rfl⟩
  have hperm : vs.Perm (afterJob lang (f.inspection found n ws).kind a.visibility a.job ws) := by
    rw [hvs]
    exact HeaderWords.normalized_perm lang _
  have hwords : ∀ v ∈ vs, lang.IsModifierWord v :=
    HeaderWords.isModifierWord_of_perm hperm
      (HeaderWords.afterJob_word hlang.toRegular found.kind hjob.isVisibility hheader.words)
  -- the span of the inspected declaration ends at its header line, which is all the edits look at
  obtain ⟨site, hlength, hfill, hhost, hquiet⟩ := hheader.exists_site
  have hends : site.Ends (f.inspection found n ws).span :=
    ⟨hquiet, hlength ▸ hheader.from_le, congrArg Int.ofNat hlength.symm⟩
  have hrewrites : (apply ⟨lang, scope⟩ a).Rewrites site (f.line ws) (f.line vs) := by
    rw [hvs]
    exact apply_rewrites hlang.toRegular hhost hheader.words hoffers.1 hends hjob.ne_unknown
      hjob.isVisibility
  obtain ⟨herror, -, hfilled⟩ := hrewrites w hw hfill
  have htext : (apply ⟨lang, scope⟩ a w).work.buffer.text = w.buffer.withLine n (f.line vs) := by
    rw [hfilled, ← hlength, (hhost ws hheader.words).withLine hfill]
  have hheader' := hheader.rewrite hwords htext
  refine ⟨vs, f.inspection found n vs, herror, htext, hvs, hperm, ?_, ?_, hheader',
    hheader'.inspect?_eq hlang.toRegular hkind hunmarked, ?_⟩
  · rw [hvs, HeaderWords.others_normalized]
    exact HeaderWords.others_afterJob hjob found.kind ws
  · exact (honce.afterJob hlang hjob).perm hperm
  · rw [hvs]
    exact f.inspection_toggled hlang found n honce hoffers

/-- Settings with an access name of the user's own. -/
def internalAccess : LanguageOptions := { customAccess := [utf8 "mx_internal"] }

/-- The frame of a method header in an ActionScript class, with a tab behind the keyword. -/
def finalMethodFrame : HeaderFrame (Language.actionScript3 internalAccess) where
  indentation := [Byte.space]
  keyword := utf8 "function"
  separator := Byte.tab
  tail := utf8 "f():void \x7b\x7d"
  isBlank := List.forall_mem_singleton.2 rfl
  keyword_mem := by decide
  isSeparator := by decide

/-- The words before the keyword of that header. -/
def finalMethodWords : List Text := [utf8 "override", utf8 "mx_internal", utf8 "final"]

/-- A class with a final method, and a comment above it that speaks of modifiers. -/
def finalMethodWork : Work :=
  { buffer := Buffer.ofText (utf8 "class A \x7b\n /* not static,\n    public */\n"
      ++ finalMethodFrame.line finalMethodWords ++ utf8 "\n\x7d") }

/-- The method, as the engine reports it. -/
def finalMethod : Found where
  enclosing := { declaration := { name := utf8 "A", lineFrom := 0, lineTo := 4 } }
  member := some { name := utf8 "f", lineFrom := 1, lineTo := 3, flags := .function }

/-- The method can be made static; it is no longer final then, and keeps its access name. -/
theorem apply_menu_toggles_addStatic :
    Language.build [] (utf8 "as3") internalAccess
      = .ok (Language.actionScript3 internalAccess) ∧
    (Language.actionScript3 internalAccess).CleanAccess ∧ finalMethod.Unmarked ∧
    Once (Language.actionScript3 internalAccess) finalMethodWords ∧
    finalMethodWork.buffer.HeaderAt finalMethod 3 finalMethodFrame finalMethodWords ∧
    ∃ s a s', finalMethodWork.buffer.inspect? (Language.actionScript3 internalAccess) finalMethod
        = some s ∧
      a ∈ s.menu (Language.actionScript3 internalAccess) ∧ a.job = .addStatic ∧
      (apply ⟨Language.actionScript3 internalAccess, none⟩ a finalMethodWork).error = none ∧
      (apply ⟨Language.actionScript3 internalAccess, none⟩ a
        finalMethodWork).work.buffer.inspect? (Language.actionScript3 internalAccess) finalMethod
        = some s' ∧
      s.has .final = true ∧ s'.has .static = true ∧ s'.has .final = false ∧
      s'.visibility = utf8 "mx_internal" := by
  have hbuild : Language.build [] (utf8 "as3") internalAccess
      = .ok (Language.actionScript3 internalAccess) := rfl
  have hclean : (Language.actionScript3 internalAccess).CleanAccess := by
    show ∀ v ∈ [utf8 "mx_internal"], _
    decide
  have hunmarked : finalMethod.Unmarked := by constructor <;> decide
  have honce : Once (Language.actionScript3 internalAccess) finalMethodWords := by
    constructor <;> decide
  have hnoCode : (Comment.stripLines false ((finalMethodWork.buffer.text.lines.take 3).drop 1)).all
      (fun code => code.all (!Byte.isWord ·)) = true := by decide
  have hheader : finalMethodWork.buffer.HeaderAt finalMethod 3 finalMethodFrame
      finalMethodWords := by
    refine ⟨by decide, by decide, by decide, by decide, fun code hcode x hx => ?_, by decide⟩
    simpa using List.all_eq_true.1 (List.all_eq_true.1 hnoCode code hcode) x hx
  obtain ⟨s, hs, hmenu⟩ :=
    apply_menu_toggles hbuild hclean (by decide) hunmarked honce rfl hheader
  have hinspect : (finalMethodWork.buffer.inspect? (Language.actionScript3 internalAccess)
      finalMethod).any (fun s => s.kind = .method ∧ s.has .final ∧
        s.visibility = utf8 "mx_internal" ∧
        ∃ a ∈ s.menu (Language.actionScript3 internalAccess), a.job = .addStatic) = true := by
    decide
  rw [hs, Option.any_some, decide_eq_true_eq] at hinspect
  obtain ⟨hmethod, hfinal, hvisibility, a, ha, hjob⟩ := hinspect
  obtain ⟨vs, s', herror, -, -, -, -, -, -, hs', htoggled⟩ := hmenu a ha none
  refine ⟨hbuild, hclean, hunmarked, honce, hheader, s, a, s', hs, ha, hjob, herror, hs', hfinal,
    ?_, ?_, ?_⟩
  · rw [htoggled.has, hjob]
    rfl
  · rw [htoggled.has, hjob, hmethod]
    rfl
  · rw [htoggled.visibility, hjob, if_neg (by decide), hvisibility]

end Editor

end ModifierToggle
