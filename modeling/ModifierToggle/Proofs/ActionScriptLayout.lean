import ModifierToggle.Proofs.NormalForm

set_option autoImplicit false

/-! # The layout of ActionScript headers

In ActionScript `final` is a plain word, and where the settings ask for a leading visibility, two
passes pull at the front of a header: one moves `final` there, the next moves the visibility in
front of `final`. On a header without leading annotations they end at the same words every time,
with the visibility first and `final` second.

Leading annotations come in between. A `final` directly behind them counts as being in its place,
but once the visibility has gone in front of it, it does not: the next run takes `final`, and the
visibility after it, past the annotations. So a second run changes the header exactly if `final`
stands directly behind leading annotations and a visibility stands somewhere behind `final`
(`leading_leading_eq_iff`), and a third run never changes it again. -/

namespace ModifierToggle

/-! ## Access names that open declarations

The keywords that open declarations do not occur among the words of a header. An access name that is
spelled like one of them is therefore never met there, and a table does the same without it. -/

namespace Language

variable {lang : Language}

/-- The table without access names that are spelled like the start of a declaration. -/
def withoutStartAccess (lang : Language) : Language :=
  withVisibilityPattern
    { lang with customAccess := lang.customAccess.filter fun v => !lang.startWords.contains v }

theorem isVisibility_withoutStartAccess {w : Text} (hw : w ∉ lang.startWords) :
    lang.withoutStartAccess.isVisibility w = lang.isVisibility w := by
  rw [Bool.eq_iff_iff, isVisibility_iff, isVisibility_iff, mem_allVisibilities,
    mem_allVisibilities]
  simp [withoutStartAccess, withVisibilityPattern, hw]

/-- All that is asked of the access names is that they are names. -/
theorem SoundKeywords.regular_withoutStartAccess (hsound : lang.SoundKeywords)
    (haccess : ∀ v ∈ lang.customAccess, v.isName = true) : lang.withoutStartAccess.Regular := by
  obtain ⟨hstart, htokens, -, hown⟩ := hsound
  have hall : ∀ v ∈ lang.withoutStartAccess.allVisibilities,
      v.isName = true ∧ v ∉ lang.startWords := by
    intro v hv
    rcases (mem_allVisibilities.1 hv).1 with hv | hv | hv
    · exact ⟨(hown v (List.mem_append_left _ hv)).1, (hown v (List.mem_append_left _ hv)).2.1⟩
    · exact ⟨(hown v (List.mem_append_right _ hv)).1, (hown v (List.mem_append_right _ hv)).2.1⟩
    · obtain ⟨hmem, hnot⟩ := List.mem_filter.1 hv
      exact ⟨haccess v hmem, by simpa using hnot⟩
  exact ⟨hstart, fun tok htok => (htokens tok htok).1, fun tok htok => (htokens tok htok).2, rfl,
    fun v hv => (hall v hv).1, fun v hv => (hall v hv).2⟩

/-- A visibility is a name, and so no annotation. -/
theorem SoundKeywords.annotates_of_isVisibility (hsound : lang.SoundKeywords)
    (haccess : ∀ v ∈ lang.customAccess, v.isName = true) (v : Text)
    (hv : lang.isVisibility v = true) : LineEdit.annotates v = false := by
  obtain ⟨-, -, -, hown⟩ := hsound
  refine Text.not_annotates_of_isName ?_
  rcases (mem_allVisibilities.1 (isVisibility_iff.1 hv)).1 with hv | hv | hv
  · exact (hown v (List.mem_append_left _ hv)).1
  · exact (hown v (List.mem_append_right _ hv)).1
  · exact haccess v hv

end Language

/-- A header line of a table is one of the table without those access names. -/
def HeaderFrame.withoutStartAccess {lang : Language} (f : HeaderFrame lang) :
    HeaderFrame lang.withoutStartAccess :=
  ⟨f.indentation, f.keyword, f.separator, f.tail, f.isBlank, f.keyword_mem, f.isSeparator⟩

namespace HeaderWords

open LineEdit (visibilityFirst? annotates)

theorem findIdx?_congr {p q : Text → Bool} {ws : List Text} (h : ∀ w ∈ ws, p w = q w) :
    ws.findIdx? p = ws.findIdx? q := by
  induction ws with
  | nil => rfl
  | cons w ws ih =>
    rw [List.findIdx?_cons, List.findIdx?_cons, h w List.mem_cons_self,
      ih fun v hv => h v (List.mem_cons_of_mem _ hv)]

theorem visibilityFirst?_withoutStartAccess {lang : Language} {ws : List Text}
    (hws : ∀ w ∈ ws, lang.IsModifierWord w) :
    visibilityFirst? lang.withoutStartAccess ws = visibilityFirst? lang ws := by
  have hidx : ws.findIdx? lang.withoutStartAccess.isVisibility = ws.findIdx? lang.isVisibility :=
    findIdx?_congr fun w hw => Language.isVisibility_withoutStartAccess (hws w hw).2
  rw [visibilityFirst?, visibilityFirst?, hidx]

/-! ## The two passes -/

namespace ActionScript

def final : Text := utf8 "final"

/-- What the placement of `final` and then the order of modifiers make of the words. -/
def leading (lang : Language) (ws : List Text) : List Text := ordered lang (moveFirst final ws)

/-- The words are not settled after one run: `final`, which is no visibility, stands directly behind
    leading annotations, and there is a visibility. -/
def Unsettled (lang : Language) (ws : List Text) : Prop :=
  ws.takeWhile annotates ≠ [] ∧ (ws.dropWhile annotates).head? = some final ∧
    ws.any lang.isVisibility = true ∧ lang.isVisibility final = false

instance (lang : Language) (ws : List Text) : Decidable (Unsettled lang ws) :=
  inferInstanceAs (Decidable (_ ∧ _))

variable {lang : Language} {lead after ws : List Text} {v : Text}

theorem leading_perm (lang : Language) (ws : List Text) : (leading lang ws).Perm ws :=
  (ordered_perm lang _).trans (moveFirst_perm final ws)

/-- The passes are all that restoring the layout comes to. -/
theorem normalized_eq_leading {opts : LanguageOptions} (hswm : opts.startWithModifiers = true)
    (ws : List Text) :
    normalized (Language.actionScript3 opts) ws = leading (Language.actionScript3 opts) ws := by
  have hswm' : (Language.actionScript3 opts).startWithModifiers = true := hswm
  unfold normalized
  rw [if_pos hswm']
  rfl

theorem takeWhile_final (hlead : ∀ w ∈ lead, annotates w = true) (after : List Text) :
    (lead ++ final :: after).takeWhile annotates = lead := by
  rw [lead_split (by decide), List.takeWhile_eq_self_iff.2 hlead]

theorem dropWhile_final (hlead : ∀ w ∈ lead, annotates w = true) (after : List Text) :
    (lead ++ final :: after).dropWhile annotates = final :: after := by
  rw [List.dropWhile_append_of_pos hlead, List.dropWhile_cons, if_neg (by decide)]

theorem final_notMem (hlead : ∀ w ∈ lead, annotates w = true) : final ∉ lead :=
  fun hmem => absurd (hlead _ hmem) (by decide)

/-- Directly behind leading annotations `final` is in its place. -/
theorem moveFirst_final (hlead : ∀ w ∈ lead, annotates w = true) (after : List Text) :
    moveFirst final (lead ++ final :: after) = lead ++ final :: after := by
  rw [moveFirst_split (final_notMem hlead), if_pos (List.all_eq_true.2 hlead)]

/-- Wherever `final` is, it ends up directly behind leading annotations. -/
theorem exists_moveFirst_final (h : final ∈ ws) :
    ∃ lead after, (∀ w ∈ lead, annotates w = true) ∧
      moveFirst final ws = lead ++ final :: after ∧ (lead = [] ∨ ws = lead ++ final :: after) := by
  obtain ⟨before, after, rfl, hbefore⟩ := List.eq_append_cons_of_mem h
  rw [moveFirst_split hbefore]
  cases hall : before.all annotates with
  | true => exact ⟨before, after, List.all_eq_true.1 hall, rfl, Or.inr rfl⟩
  | false => exact ⟨[], before ++ after, List.forall_mem_nil _, rfl, Or.inl rfl⟩

section

variable (hvis : ∀ v, lang.isVisibility v = true → annotates v = false)

include hvis

theorem annotation_notVisibility {w : Text} (hw : annotates w = true) :
    lang.isVisibility w = false := by
  cases hwvis : lang.isVisibility w with
  | false => rfl
  | true => rw [hvis w hwvis] at hw; cases hw

/-- A visibility between leading annotations and `final`: both go past the annotations. Without
    annotations nothing changes: the passes exchange the two words and exchange them back. -/
theorem leading_visibility_final (hfinal : lang.isVisibility final = false)
    (hlead : ∀ w ∈ lead, annotates w = true) (hv : lang.isVisibility v = true) :
    leading lang (lead ++ v :: final :: after) = v :: final :: (lead ++ after) := by
  have hne : final ∉ lead ++ [v] := by
    rw [List.mem_append, List.mem_singleton]
    rintro (hmem | rfl)
    · exact final_notMem hlead hmem
    · rw [hv] at hfinal
      cases hfinal
  have hall : (lead ++ [v]).all annotates = false := by simp [hvis v hv]
  have hbefore : ∀ w ∈ final :: lead, lang.isVisibility w = false :=
    List.forall_mem_cons.2 ⟨hfinal, fun w hw => annotation_notVisibility hvis (hlead w hw)⟩
  have hfirst : moveFirst final (lead ++ v :: final :: after)
      = (final :: lead) ++ v :: after := by
    rw [List.append_cons, moveFirst_split hne, hall]
    simp
  unfold leading
  rw [hfirst, ordered_split hvis hbefore hv]
  rfl

/-- Once `final` is in its place, the visibility goes directly before it. -/
theorem exists_ordered_final (hfinal : lang.isVisibility final = false)
    (hlead : ∀ w ∈ lead, annotates w = true) (hany : after.any lang.isVisibility = true) :
    ∃ v rest, lang.isVisibility v = true ∧
      ordered lang (lead ++ final :: after) = lead ++ v :: final :: rest := by
  rcases visibility_cases lang after with hnone | ⟨front, v, back, rfl, hv, hfront⟩
  · obtain ⟨w, hw, hwvis⟩ := List.any_eq_true.1 hany
    rw [hnone w hw] at hwvis
    cases hwvis
  · have hbefore : ∀ w ∈ lead ++ final :: front, lang.isVisibility w = false := by
      intro w hw
      rcases List.mem_append.1 hw with hw | hw
      · exact annotation_notVisibility hvis (hlead w hw)
      · rcases List.mem_cons.1 hw with rfl | hw
        · exact hfinal
        · exact hfront w hw
    refine ⟨v, front ++ back, hv, ?_⟩
    rw [← List.cons_append, ← List.append_assoc, ordered_split hvis hbefore hv,
      takeWhile_final hlead, dropWhile_final hlead]
    rfl

/-- Where one run does not settle the header, two do. -/
theorem Unsettled.exists_leading (h : Unsettled lang ws) :
    ∃ lead v rest, lead ≠ [] ∧ (∀ w ∈ lead, annotates w = true) ∧ lang.isVisibility v = true ∧
      leading lang ws = lead ++ v :: final :: rest ∧
      leading lang (leading lang ws) = v :: final :: (lead ++ rest) := by
  obtain ⟨hne, hhead, hany, hfinal⟩ := h
  obtain ⟨after, hdrop⟩ := List.head?_eq_some_iff.1 hhead
  have hlead : ∀ w ∈ ws.takeWhile annotates, annotates w = true :=
    List.all_eq_true.1 List.all_takeWhile
  have hsplit : ws.takeWhile annotates ++ final :: after = ws := by
    rw [← hdrop, List.takeWhile_append_dropWhile]
  generalize ws.takeWhile annotates = lead at *
  subst hsplit
  have hafter : after.any lang.isVisibility = true := by
    rw [List.any_append, List.any_cons, hfinal, Bool.false_or, Bool.or_eq_true] at hany
    refine hany.resolve_left fun hleadVis => ?_
    obtain ⟨w, hw, hwvis⟩ := List.any_eq_true.1 hleadVis
    rw [annotation_notVisibility hvis (hlead w hw)] at hwvis
    cases hwvis
  obtain ⟨v, rest, hv, hordered⟩ := exists_ordered_final hvis hfinal hlead hafter
  have hleading : leading lang (lead ++ final :: after) = lead ++ v :: final :: rest := by
    rw [leading, moveFirst_final hlead, hordered]
  refine ⟨lead, v, rest, hne, hlead, hv, hleading, ?_⟩
  rw [hleading, leading_visibility_final hvis hfinal hlead hv]

/-- All other headers are settled after one run. -/
theorem leading_leading (h : ¬ Unsettled lang ws) :
    leading lang (leading lang ws) = leading lang ws := by
  by_cases hmem : final ∈ ws
  · obtain ⟨lead, after, hlead, hfirst, hcases⟩ := exists_moveFirst_final hmem
    have hleading : leading lang ws = ordered lang (lead ++ final :: after) := by
      rw [leading, hfirst]
    -- whatever need not be ordered then is settled
    have hkept : VisibilityLeads lang (lead ++ final :: after) →
        leading lang (leading lang ws) = leading lang ws := by
      intro hleads
      rw [hleading, ordered_eq_self hvis hleads, leading, moveFirst_final hlead,
        ordered_eq_self hvis hleads]
    cases hfinal : lang.isVisibility final with
    | true => exact hkept (visibilityLeads_split hlead hfinal (by decide))
    | false =>
      cases hany : after.any lang.isVisibility with
      | false =>
        refine hkept fun hvisible => ?_
        obtain ⟨w, hw, hwvis⟩ := List.any_eq_true.1 hvisible
        have hnone : lang.isVisibility w = false := by
          rcases List.mem_append.1 hw with hw | hw
          · exact annotation_notVisibility hvis (hlead w hw)
          · rcases List.mem_cons.1 hw with rfl | hw
            · exact hfinal
            · simpa using List.any_eq_false.1 hany w hw
        rw [hnone] at hwvis
        cases hwvis
      | true =>
        obtain ⟨v, rest, hv, hordered⟩ := exists_ordered_final hvis hfinal hlead hany
        have hnil : lead = [] := by
          by_contra hne
          have hws := hcases.resolve_left hne
          refine h ⟨?_, ?_, ?_, hfinal⟩
          · rwa [hws, takeWhile_final hlead]
          · rw [hws, dropWhile_final hlead]
            rfl
          · rw [hws, List.any_append, List.any_cons, hany]
            simp
        subst hnil
        rw [hleading, hordered]
        exact leading_visibility_final hvis hfinal hlead hv
  · have hnot : final ∉ ordered lang ws := fun hmem' =>
      hmem ((ordered_perm lang ws).mem_iff.1 hmem')
    unfold leading
    rw [moveFirst_of_notMem hmem, moveFirst_of_notMem hnot]
    exact ordered_eq_self hvis (visibilityLeads_ordered hvis ws)

/-- **One run settles a header** unless `final` stands directly behind leading annotations and a
    visibility stands behind it. -/
theorem leading_leading_eq_iff :
    leading lang (leading lang ws) = leading lang ws ↔ ¬ Unsettled lang ws := by
  constructor
  · intro hstable hunsettled
    obtain ⟨lead, v, rest, hne, hlead, hv, hfirst, hsecond⟩ := hunsettled.exists_leading hvis
    rw [hsecond, hfirst] at hstable
    obtain ⟨w, lead, rfl⟩ := List.exists_cons_of_ne_nil hne
    -- the visibility would be an annotation
    have hhead : v = w := (List.cons.inj hstable).1
    have hann := hlead w List.mem_cons_self
    rw [← hhead, hvis v hv] at hann
    cases hann
  · exact leading_leading hvis

/-- Two runs settle every header. -/
theorem leading_thrice (ws : List Text) :
    leading lang (leading lang (leading lang ws)) = leading lang (leading lang ws) := by
  by_cases h : Unsettled lang ws
  · obtain ⟨lead, v, rest, -, -, hv, -, hsecond⟩ := h.exists_leading hvis
    rw [hsecond]
    exact leading_visibility_final hvis h.2.2.2 (List.forall_mem_nil _) hv
  · rw [leading_leading hvis h, leading_leading hvis h]

end

end ActionScript

end HeaderWords

/-! ## Restoring the layout of a line -/

theorem LineEdit.orderModifiers_withoutStartAccess {lang : Language} (f : HeaderFrame lang)
    (hlang : lang.withoutStartAccess.Regular) {ws : List Text}
    (hws : ∀ w ∈ ws, lang.IsModifierWord w) (s : LineSite) :
    orderModifiers lang (s.codeLine (f.line ws))
      = orderModifiers lang.withoutStartAccess (s.codeLine (f.line ws)) := by
  have hstart : (s.codeLine (f.line ws)).start? lang
      = some ⟨(f.front ws).length, (f.front ws).length + f.keyword.length,
          (f.front ws).length + f.keyword.length + 1⟩ :=
    f.withoutStartAccess.start?_line hlang hws
  have hstart' : (s.codeLine (f.line ws)).start? lang.withoutStartAccess
      = (s.codeLine (f.line ws)).start? lang := rfl
  have hrun : modifierRunStart (f.line ws) (f.front ws).length = f.indentation.length :=
    f.withoutStartAccess.modifierRunStart_line hlang hws
  have hslice := f.slice_line ws []
  rw [List.append_nil] at hslice
  have hwords := Text.words_spaced fun w hw => (hws w hw).1
  -- both read the same words off the line
  rw [orderModifiers, orderModifiers, hstart', hstart]
  simp only [Option.map_some, LineSite.codeLine, hrun, hslice, hwords,
    HeaderWords.visibilityFirst?_withoutStartAccess hws]

namespace Editor

open HeaderWords

/-- Restoring the layout of a header under a table whose access names may be spelled like any
    keyword. -/
theorem normalize_rewrites_of_isName {lang : Language} {scope : Option ToggleScope}
    {f : HeaderFrame lang} {s : LineSite} {span : Span} {ws : List Text}
    (hsound : lang.SoundKeywords) (haccess : ∀ v ∈ lang.customAccess, v.isName = true)
    (hhost : s.Hosts f) (hspan : s.Ends span) (hws : ∀ w ∈ ws, lang.IsModifierWord w) :
    (normalize ⟨lang, scope⟩ span).Rewrites s (f.line ws) (f.line (normalized lang ws)) := by
  have hlang := hsound.regular_withoutStartAccess haccess
  have hhost' : s.Hosts f.withoutStartAccess := hhost
  refine normalize_rewrites_of_passes hws (fun m us hus => ?_) fun us hus => ?_
  · -- tokens are placed without a look at the access names
    have hplacement : (fixPlacement ⟨lang.withoutStartAccess, scope⟩ m span).Rewrites s
        (f.withoutStartAccess.line us)
        (f.withoutStartAccess.line (placed lang.withoutStartAccess m us)) :=
      fixPlacement_rewrites hlang hhost' hspan hus m
    exact hplacement
  · have hneeds : (LineEdit.orderModifiers lang).NeedsWord := by
      intro l hl
      have hstart : l.start? lang = none := hlang.findStart?_noWord hl
      rw [LineEdit.orderModifiers, hstart]
      rfl
    have hordered : ordered lang.withoutStartAccess us = ordered lang us := by
      rw [ordered, ordered, visibilityFirst?_withoutStartAccess hus]
    have hline : LineEdit.orderModifiers lang (s.codeLine (f.line us))
        = some (f.line (ordered lang us)) := by
      rw [LineEdit.orderModifiers_withoutStartAccess f hlang hus, ← hordered]
      exact f.withoutStartAccess.orderModifiers_line hlang hus
    exact .editLine hspan hneeds (hhost us hus) (f.line_ne_nil us) hline _

/-- **ActionScript headers settle in two runs.** Where the visibility has to lead, restoring the
    layout on the one line of a header permutes its words. Doing so again changes the text exactly
    if `final` stands directly behind leading annotations with a visibility behind it, and a third
    run never changes it. The access names may be any names, the spellings of keywords among
    them. -/
theorem normalize_actionScript_settles (opts : LanguageOptions)
    (hleads : opts.startWithModifiers = true)
    (haccess : ∀ v ∈ (Language.actionScript3 opts).customAccess, v.isName = true)
    (scope : Option ToggleScope) (f : HeaderFrame (Language.actionScript3 opts)) {ws : List Text}
    (hws : ∀ w ∈ ws, (Language.actionScript3 opts).IsModifierWord w) {w : Work} {n : Nat}
    (hw : w.writesLeft = none) (hline : w.buffer.text.lines[n]? = some (f.line ws)) :
    let step := normalize ⟨Language.actionScript3 opts, scope⟩ ⟨n, n⟩
    let first := step w
    let second := step first.work
    let third := step second.work
    first.error = none ∧ second.error = none ∧ third.error = none ∧
    (∃ vs, first.work.buffer.text = w.buffer.withLine n (f.line vs) ∧ vs.Perm ws) ∧
    (second.work.buffer.text = first.work.buffer.text
      ↔ ¬ ActionScript.Unsettled (Language.actionScript3 opts) ws) ∧
    third.work.buffer.text = second.work.buffer.text := by
  intro step first second third
  obtain ⟨s, hfill, hlength, hhost⟩ := f.exists_site hline
  subst hlength
  have hsound := Language.actionScript3_soundKeywords opts
  have hvis := hsound.annotates_of_isVisibility haccess
  have hrewrites : ∀ us : List Text, (∀ w ∈ us, (Language.actionScript3 opts).IsModifierWord w) →
      step.Rewrites s (f.line us)
        (f.line (ActionScript.leading (Language.actionScript3 opts) us)) := by
    intro us hus
    rw [← ActionScript.normalized_eq_leading hleads]
    exact normalize_rewrites_of_isName hsound haccess hhost s.ends_single hus
  -- the words after one run and after two
  have hfirst := isModifierWord_of_perm
    (ActionScript.leading_perm (Language.actionScript3 opts) ws) hws
  have hsecond := isModifierWord_of_perm
    (ActionScript.leading_perm (Language.actionScript3 opts) _) hfirst
  obtain ⟨herror₁, hw₁, ht₁⟩ := hrewrites ws hws w hw hfill.symm
  obtain ⟨herror₂, hw₂, ht₂⟩ := hrewrites _ hfirst first.work hw₁ ht₁
  obtain ⟨herror₃, -, ht₃⟩ := hrewrites _ hsecond second.work hw₂ ht₂
  refine ⟨herror₁, herror₂, herror₃,
    ⟨_, ?_, ActionScript.leading_perm (Language.actionScript3 opts) ws⟩, ?_, ?_⟩
  · rw [(hhost ws hws).withLine hfill.symm]
    exact ht₁
  · rw [← ActionScript.leading_leading_eq_iff hvis, ht₁, ht₂]
    constructor
    · intro hsame
      have hlines := List.append_cancel_left (List.append_cancel_right hsame)
      exact f.line_injective (fun v hv => (hsecond v hv).1) (fun v hv => (hfirst v hv).1) hlines
    · intro hsame
      rw [hsame]
  · rw [ht₂, ht₃, ActionScript.leading_thrice hvis]

/-- Settings under which the visibility has to lead, with access names that are spelled like
    keywords. -/
def keywordAccess : LanguageOptions :=
  { startWithModifiers := true, customAccess := [utf8 "class", utf8 "static"] }

/-- The frame of a method header in an ActionScript class. -/
def memberFrame : HeaderFrame (Language.actionScript3 keywordAccess) where
  indentation := [Byte.tab]
  keyword := utf8 "function"
  separator := Byte.space
  tail := utf8 "f() {}"
  isBlank := methodFrame.isBlank
  keyword_mem := by decide
  isSeparator := methodFrame.isSeparator

/-- Words in which `static` counts as a visibility. -/
def memberWords : List Text := [utf8 "@a", utf8 "static", utf8 "final"]

/-- A class with a method that has these words. -/
def memberWork : Work :=
  { buffer := Buffer.ofText
      (utf8 "class A \x7b\n" ++ memberFrame.line memberWords ++ utf8 "\n\x7d") }

/-- A header with a leading annotation that one run settles. -/
theorem normalize_actionScript_settles_member :
    keywordAccess.startWithModifiers = true ∧
    (∀ v ∈ (Language.actionScript3 keywordAccess).customAccess, v.isName = true) ∧
    (∀ v ∈ memberWords, (Language.actionScript3 keywordAccess).IsModifierWord v) ∧
    memberWork.writesLeft = none ∧
    memberWork.buffer.text.lines[1]? = some (memberFrame.line memberWords) ∧
    (∃ vs, (normalize ⟨Language.actionScript3 keywordAccess, none⟩ ⟨(1 : Nat), (1 : Nat)⟩
        memberWork).work.buffer.text = memberWork.buffer.withLine 1 (memberFrame.line vs) ∧
      vs.Perm memberWords) ∧
    (normalize ⟨Language.actionScript3 keywordAccess, none⟩ ⟨(1 : Nat), (1 : Nat)⟩
      (normalize ⟨Language.actionScript3 keywordAccess, none⟩ ⟨(1 : Nat), (1 : Nat)⟩
        memberWork).work).work.buffer.text
      = (normalize ⟨Language.actionScript3 keywordAccess, none⟩ ⟨(1 : Nat), (1 : Nat)⟩
        memberWork).work.buffer.text := by
  have haccess : ∀ v ∈ (Language.actionScript3 keywordAccess).customAccess, v.isName = true := by
    decide
  have hws : ∀ v ∈ memberWords, (Language.actionScript3 keywordAccess).IsModifierWord v := by decide
  have hline : memberWork.buffer.text.lines[1]? = some (memberFrame.line memberWords) := by decide
  have hsettled : ¬ ActionScript.Unsettled (Language.actionScript3 keywordAccess) memberWords := by
    decide
  obtain ⟨-, -, -, hwords, hstable, -⟩ :=
    normalize_actionScript_settles keywordAccess rfl haccess none memberFrame hws rfl hline
  exact ⟨rfl, haccess, hws, rfl, hline, hwords, hstable.2 hsettled⟩

/-- With `final` directly behind an annotation, a second run changes the header once more. -/
theorem normalize_actionScript_unsettled :
    let ed : Editor := ⟨Language.actionScript3 visibilityLeading, none⟩
    let first := ed.normalize ⟨0, 0⟩
      { buffer := Buffer.ofText (utf8 "@a final public function f() {}") }
    first.work.buffer.text = utf8 "@a public final function f() {}" ∧
    (ed.normalize ⟨0, 0⟩ first.work).work.buffer.text
      = utf8 "public final @a function f() {}" := by
  decide

end Editor

end ModifierToggle
