import ModifierToggle.Proofs.HeaderEdits

set_option autoImplicit false

/-! # Editing steps on a header

Every step of the editor, taken on a span that ends at a header line in its usual form, rewrites the
words of that line, and fails only if a replacement is refused. What it makes of the words is said
by the functions of `HeaderWords`, and steps taken one after the other make functions applied one
after the other. The main statements are `Editor.normalize_rewrites` and `Editor.apply_rewrites`. -/

namespace ModifierToggle

/-! ## A header in a buffer -/

/-- The text of a buffer with another line `n`. -/
def Buffer.withLine (b : Buffer) (n : Nat) (line : Text) : Text :=
  b.text.take (b.lineStart n) ++ line ++ b.text.drop (b.lineEnd n)

theorem LineSite.Fits.withLine {s : LineSite} {x : Text} (hfits : s.Fits x) {b : Buffer}
    (ht : b.text = s.fill x) (y : Text) : b.withLine s.above.length y = s.fill y := by
  rw [Buffer.withLine, Buffer.lineStart, Buffer.lineEnd, hfits.lineSpan ht, ht]
  simp only [LineSite.fill]
  rw [← List.length_append, List.drop_left, List.append_assoc s.before x, List.take_left]

/-- The gap takes the frame with whatever words are in it. -/
def LineSite.Hosts {lang : Language} (s : LineSite) (f : HeaderFrame lang) : Prop :=
  ∀ ws : List Text, (∀ w ∈ ws, lang.IsModifierWord w) → s.Fits (f.line ws)

/-- A header line of a text stands in a gap that takes it with any other words. -/
theorem HeaderFrame.exists_site {lang : Language} (f : HeaderFrame lang) {t : Text} {n : Nat}
    {ws : List Text} (h : t.lines[n]? = some (f.line ws)) :
    ∃ s : LineSite, s.fill (f.line ws) = t ∧ s.above.length = n ∧ s.Hosts f := by
  obtain ⟨s, hfill, hlength, hnewline, hfits⟩ := Text.exists_site h
  refine ⟨s, hfill, hlength, fun vs hvs => hfits _ ?_ ?_⟩
  · exact f.newline_notMem_line (fun v hv => (hvs v hv).1) hnewline
  · rw [f.getLast?_line vs ws]
    exact id

/-! ## Words stay words -/

namespace HeaderWords

variable {lang : Language} {ws : List Text}

theorem token_mem {m : Modifier} {tok : Token} (h : lang.token? m = some tok) :
    tok ∈ lang.tokens := List.mem_of_find?_eq_some h

theorem isModifierWord_of_perm {vs : List Text} (hperm : vs.Perm ws)
    (hws : ∀ w ∈ ws, lang.IsModifierWord w) : ∀ w ∈ vs, lang.IsModifierWord w :=
  fun w hw => hws w (hperm.mem_iff.1 hw)

theorem withToken_word (hlang : lang.Regular) (m : Modifier)
    (hws : ∀ w ∈ ws, lang.IsModifierWord w) : ∀ w ∈ withToken lang m ws, lang.IsModifierWord w := by
  unfold withToken
  split
  · next tok htok =>
    intro w hw
    rcases List.mem_append.1 hw with hw | hw
    · exact hws w hw
    · exact List.mem_singleton.1 hw ▸ hlang.token_word tok (token_mem htok)
  · exact hws

theorem without_word (m : Modifier) (hws : ∀ w ∈ ws, lang.IsModifierWord w) :
    ∀ w ∈ without lang m ws, lang.IsModifierWord w := by
  unfold without
  split
  · exact fun w hw => hws w (List.mem_of_mem_erase hw)
  · exact hws

theorem withVisibility_word {keyword : Text}
    (hkeyword : keyword = [] ∨ lang.IsModifierWord keyword)
    (hws : ∀ w ∈ ws, lang.IsModifierWord w) :
    ∀ w ∈ withVisibility lang keyword ws, lang.IsModifierWord w := by
  have hnew : ∀ w ∈ (if keyword.isEmpty then [] else [keyword]), lang.IsModifierWord w := by
    intro w hw
    rcases hkeyword with rfl | hkeyword
    · simp at hw
    · split at hw
      · simp at hw
      · exact List.mem_singleton.1 hw ▸ hkeyword
  intro w hw
  rcases visibility_cases lang ws with hnone | ⟨before, v, after, rfl, hv, hbefore⟩
  · rw [withVisibility_of_noVisibility keyword hnone] at hw
    exact (List.mem_append.1 hw).elim (hnew w) (hws w)
  · rw [withVisibility_split keyword hbefore hv] at hw
    rcases List.mem_append.1 hw with hw | hw
    · exact hws w (List.mem_append_left _ hw)
    · rcases List.mem_append.1 hw with hw | hw
      · exact hnew w hw
      · exact hws w (by simp [hw])

/-- The keyword written for a visibility is the visibility, unless that goes without saying. -/
theorem visibilityKeyword_cases (lang : Language) (kind : Kind) (vis : Text) :
    (lang.visibilityKeyword kind vis = [] ∧ lang.implicitVisibility kind = vis) ∨
      lang.visibilityKeyword kind vis = vis := by
  unfold Language.visibilityKeyword
  split
  · next homits =>
    simp only [Language.omits, Bool.and_eq_true, beq_iff_eq] at homits
    exact Or.inl ⟨rfl, homits.2.symm⟩
  · exact Or.inr rfl

theorem visibilityKeyword_vis {vis : Text} (hvis : lang.isVisibility vis = true) (kind : Kind) :
    lang.visibilityKeyword kind vis = [] ∨
      lang.isVisibility (lang.visibilityKeyword kind vis) = true := by
  rcases visibilityKeyword_cases lang kind vis with ⟨hnil, -⟩ | hsame
  · exact Or.inl hnil
  · exact Or.inr (hsame.symm ▸ hvis)

theorem afterJob_word (hlang : lang.Regular) (kind : Kind) {vis : Text} {job : Job}
    (hvis : job = .changeAccess → lang.isVisibility vis = true)
    (hws : ∀ w ∈ ws, lang.IsModifierWord w) :
    ∀ w ∈ afterJob lang kind vis job ws, lang.IsModifierWord w := by
  cases job with
  | changeAccess =>
    exact withVisibility_word ((visibilityKeyword_vis (hvis rfl) kind).imp_right
      hlang.visibility_word) hws
  | makeClassFinal | makeMethodFinal => exact withToken_word hlang .final hws
  | makeClassNotFinal | makeMethodNotFinal => exact without_word .final hws
  | makeClassExternal => exact withToken_word hlang .external hws
  | makeClassNotExternal => exact without_word .external hws
  | addStatic =>
    refine withToken_word hlang .static ?_
    split
    · exact without_word .final hws
    · exact hws
  | removeStatic => exact without_word .static hws
  | addInline => exact withToken_word hlang .inlined hws
  | removeInline => exact without_word .inlined hws
  | addNoCompletion => exact withToken_word hlang .noCompletion hws
  | removeNoCompletion => exact without_word .noCompletion hws
  | unknown number => exact hws

end HeaderWords

/-! ## Steps -/

theorem Step.Rewrites.grouped {f : Step} {s : LineSite} {x y : Text} (hf : f.Rewrites s x y) :
    (Editor.grouped f).Rewrites s x y := by
  intro w hw ht
  obtain ⟨herror, hw', ht'⟩ := hf { w with buffer := w.buffer.beginGroup } hw ht
  refine ⟨herror, hw', ?_⟩
  have hend : ∀ b : Buffer, b.endGroup.text = b.text := by
    intro b
    unfold Buffer.endGroup
    split
    · rfl
    · split <;> rfl
    · rfl
  exact (hend _).trans ht'

namespace Editor

open HeaderWords

variable {lang : Language} {scope : Option ToggleScope} {f : HeaderFrame lang} {s : LineSite}
  {span : Span} {ws : List Text} (hlang : lang.Regular) (hhost : s.Hosts f) (hspan : s.Ends span)
  (hws : ∀ w ∈ ws, lang.IsModifierWord w)

include hlang hhost hspan hws

theorem addModifier_rewrites (m : Modifier) :
    (addModifier ⟨lang, scope⟩ span m).Rewrites s (f.line ws) (f.line (withToken lang m ws)) := by
  cases htok : lang.token? m with
  | none =>
    simp only [addModifier, withToken, htok]
    exact .report _ _
  | some tok =>
    simp only [addModifier, withToken, htok]
    exact .editLine hspan (LineEdit.addToken_needsWord hlang tok) (hhost ws hws) (f.line_ne_nil ws)
      (f.addToken_line hlang hws tok) _

theorem removeModifier_rewrites (m : Modifier) :
    (removeModifier ⟨lang, scope⟩ span m).Rewrites s (f.line ws) (f.line (without lang m ws)) := by
  cases htok : lang.token? m with
  | none =>
    simp only [removeModifier, without, htok]
    exact .skip
  | some tok =>
    simp only [removeModifier, without, htok]
    have hmem := token_mem htok
    have hneeds := LineEdit.removeToken_needsWord hlang hmem
    have hline := f.removeToken_line (s := s) hlang hws hmem
    by_cases hk : tok.keyword ∈ ws
    · rw [if_pos hk] at hline
      exact .editLine hspan hneeds (hhost ws hws) (f.line_ne_nil ws) hline _
    · rw [if_neg hk] at hline
      rw [List.erase_of_not_mem hk]
      exact .editLine_otherwise hspan hneeds (hhost ws hws) (f.line_ne_nil ws) hline .skip _

theorem changeAccess_rewrites (kind : Kind) (vis : Text) :
    (changeAccess ⟨lang, scope⟩ span kind vis).Rewrites s (f.line ws)
      (f.line (withVisibility lang (lang.visibilityKeyword kind vis) ws)) := by
  unfold changeAccess withVisibility
  generalize lang.visibilityKeyword kind vis = keyword
  have hneeds := LineEdit.replaceVisibility_needsWord hlang keyword
  have hline := f.replaceVisibility_line (s := s) hlang hws keyword
  cases hany : ws.any lang.isVisibility with
  | true =>
    rw [hany, if_pos rfl] at hline
    exact .editLine hspan hneeds (hhost ws hws) (f.line_ne_nil ws) hline _
  | false =>
    rw [hany] at hline
    refine .editLine_otherwise hspan hneeds (hhost ws hws) (f.line_ne_nil ws) hline ?_ _
    cases keyword.isEmpty with
    | true => exact .skip
    | false =>
      exact .editLine hspan (LineEdit.insertVisibility_needsWord hlang keyword) (hhost ws hws)
        (f.line_ne_nil ws) (f.insertVisibility_line hlang hws keyword) _

theorem fixOrder_rewrites :
    (fixOrder ⟨lang, scope⟩ span).Rewrites s (f.line ws) (f.line (ordered lang ws)) :=
  .editLine hspan (LineEdit.orderModifiers_needsWord hlang) (hhost ws hws) (f.line_ne_nil ws)
    (f.orderModifiers_line hlang hws) _

theorem fixPlacement_rewrites (m : Modifier) :
    (fixPlacement ⟨lang, scope⟩ m span).Rewrites s (f.line ws) (f.line (placed lang m ws)) := by
  cases htok : lang.token? m with
  | none =>
    simp only [fixPlacement, placed, htok]
    exact .skip
  | some tok =>
    simp only [fixPlacement, placed, htok]
    have hmem := token_mem htok
    cases hplace : LineEdit.place? lang tok with
    | none =>
      -- only tokens that may stand anywhere have no place to be put
      have hfree : tok.placement = .free := by
        cases hplacement : tok.placement with
        | free => rfl
        | lineStart => simp [LineEdit.place?, hplacement] at hplace
        | beforeKeyword => simp [LineEdit.place?, hplacement] at hplace
      simp only [hfree]
      exact .skip
    | some r =>
      have hneeds := LineEdit.place?_needsWord hlang hmem hplace
      have hline := f.place?_line (s := s) hlang hws hmem hplace
      by_cases hk : tok.keyword ∈ ws
      · rw [if_pos hk] at hline
        exact .editLine hspan hneeds (hhost ws hws) (f.line_ne_nil ws) hline _
      · rw [if_neg hk] at hline
        rw [place_of_notMem hk]
        exact .editLine_otherwise hspan hneeds (hhost ws hws) (f.line_ne_nil ws) hline
          (.report _ _) _

omit hlang hhost hspan in
/-- The passes that restore the layout, one after the other. Every pass permutes the words, so that
    the next one meets a header in its usual form. -/
theorem normalize_rewrites_of_passes
    (hplacement : ∀ (m : Modifier) (us : List Text), (∀ w ∈ us, lang.IsModifierWord w) →
      (fixPlacement ⟨lang, scope⟩ m span).Rewrites s (f.line us) (f.line (placed lang m us)))
    (horder : ∀ us : List Text, (∀ w ∈ us, lang.IsModifierWord w) →
      (fixOrder ⟨lang, scope⟩ span).Rewrites s (f.line us) (f.line (ordered lang us))) :
    (normalize ⟨lang, scope⟩ span).Rewrites s (f.line ws) (f.line (normalized lang ws)) := by
  unfold normalize normalized
  have hfinal := isModifierWord_of_perm (placed_perm lang .final ws) hws
  refine .andThen (hplacement .final ws hws) ?_
  split
  · have hordered := isModifierWord_of_perm (ordered_perm lang _) hfinal
    have hinlined := isModifierWord_of_perm (placed_perm lang .inlined _) hordered
    exact .andThen (horder _ hfinal) <|
      .andThen (hplacement .inlined _ hordered) (hplacement .noCompletion _ hinlined)
  · have hinlined := isModifierWord_of_perm (placed_perm lang .inlined _) hfinal
    exact .andThen .skip <|
      .andThen (hplacement .inlined _ hfinal) (hplacement .noCompletion _ hinlined)

/-- **Restoring the canonical layout of a header.** -/
theorem normalize_rewrites :
    (normalize ⟨lang, scope⟩ span).Rewrites s (f.line ws) (f.line (normalized lang ws)) :=
  normalize_rewrites_of_passes hws
    (fun m _ hus => fixPlacement_rewrites hlang hhost hspan hus m)
    fun _ hus => fixOrder_rewrites hlang hhost hspan hus

omit hlang hhost hspan hws in
theorem fixPlacement_frugal (ed : Editor) (m : Modifier) : (ed.fixPlacement m span).Frugal := by
  unfold fixPlacement
  split
  · exact Step.frugal_of_buffer_eq fun _ => rfl
  · split
    · exact Step.frugal_of_buffer_eq fun _ => rfl
    · exact Step.editLine_frugal _ _ _ (Step.frugal_of_buffer_eq fun _ => rfl)

/-- A header in which everything is in its place is left alone. -/
theorem normalize_keeps (hfinal : placed lang .final ws = ws)
    (hordered : lang.startWithModifiers = true → ordered lang ws = ws)
    (hinlined : placed lang .inlined ws = ws) (hnoCompletion : placed lang .noCompletion ws = ws) :
    (normalize ⟨lang, scope⟩ span).Keeps s (f.line ws) := by
  have hplacement : ∀ m, placed lang m ws = ws →
      (fixPlacement ⟨lang, scope⟩ m span).Keeps s (f.line ws) := by
    intro m hm
    have hrewrites : (fixPlacement ⟨lang, scope⟩ m span).Rewrites s (f.line ws)
        (f.line (placed lang m ws)) := fixPlacement_rewrites hlang hhost hspan hws m
    rw [hm] at hrewrites
    exact (fixPlacement_frugal _ m).keeps hrewrites
  have horder : (if lang.startWithModifiers then fixOrder ⟨lang, scope⟩ span else Step.skip).Keeps s
      (f.line ws) := by
    split
    · next hswm =>
      have hrewrites : (fixOrder ⟨lang, scope⟩ span).Rewrites s (f.line ws)
          (f.line (ordered lang ws)) := fixOrder_rewrites hlang hhost hspan hws
      rw [hordered hswm] at hrewrites
      exact (Step.editLine_frugal _ _ _ (Step.frugal_of_buffer_eq fun _ => rfl)).keeps hrewrites
    · exact (Step.frugal_of_buffer_eq fun _ => rfl).keeps .skip
  exact (hplacement .final hfinal).andThen <| horder.andThen <|
    (hplacement .inlined hinlined).andThen (hplacement .noCompletion hnoCompletion)

theorem runJob_rewrites (kind : Kind) (vis : Text) {job : Job} (hjob : ∀ n, job ≠ .unknown n) :
    (runJob ⟨lang, scope⟩ span kind vis job).Rewrites s (f.line ws)
      (f.line (afterJob lang kind vis job ws)) := by
  have hadd : ∀ m, (addModifier ⟨lang, scope⟩ span m).Rewrites s (f.line ws)
      (f.line (withToken lang m ws)) := addModifier_rewrites hlang hhost hspan hws
  have hremove : ∀ m, (removeModifier ⟨lang, scope⟩ span m).Rewrites s (f.line ws)
      (f.line (without lang m ws)) := removeModifier_rewrites hlang hhost hspan hws
  cases job with
  | changeAccess => exact changeAccess_rewrites hlang hhost hspan hws kind vis
  | makeClassFinal | makeMethodFinal => exact hadd .final
  | makeClassNotFinal | makeMethodNotFinal => exact hremove .final
  | makeClassExternal => exact hadd .external
  | makeClassNotExternal => exact hremove .external
  | addStatic =>
    by_cases hkind : kind = .method
    · subst hkind
      exact .andThen (hremove .final)
        (addModifier_rewrites hlang hhost hspan (without_word .final hws) .static)
    · simp only [runJob, afterJob, hkind, if_false]
      exact .andThen .skip (hadd .static)
  | removeStatic => exact hremove .static
  | addInline => exact hadd .inlined
  | removeInline => exact hremove .inlined
  | addNoCompletion => exact hadd .noCompletion
  | removeNoCompletion => exact hremove .noCompletion
  | unknown number => exact absurd rfl (hjob number)

omit hspan in
/-- **Applying a toggle to a header.** -/
theorem apply_rewrites {action : Action} {target : Inspection}
    (htarget : action.target = some target) (hspan : s.Ends target.span)
    (hjob : ∀ n, action.job ≠ .unknown n)
    (hvis : action.job = .changeAccess → lang.isVisibility action.visibility = true) :
    (apply ⟨lang, scope⟩ action).Rewrites s (f.line ws)
      (f.line (normalized lang
        (afterJob lang target.kind action.visibility action.job ws))) := by
  have hwords := afterJob_word hlang target.kind hvis hws
  simp only [apply, htarget]
  exact .grouped <|
    .andThen (.mapError (runJob_rewrites hlang hhost hspan hws _ _ hjob) _) <|
    .andThen (.mapError (normalize_rewrites hlang hhost hspan hwords) _) (.report _ _)

end Editor

end ModifierToggle
