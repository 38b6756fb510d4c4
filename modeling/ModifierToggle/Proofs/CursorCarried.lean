import ModifierToggle.Proofs.HeaderSteps

set_option autoImplicit false

/-! # Where edits of a header take the cursor

An edit replaces the shortest part of the header line that it can, and that part may begin or end
inside the keyword: `function` and `final function` begin alike. What it never does is to reach the
end of the keyword, since no modifier word opens a declaration (`HeaderFrame.between_line`). So a
cursor up to the end of the keyword stays there, and a cursor from there on keeps its distance
(`Carried`). Every step of the editor carries the cursor in this way, whether or not its
replacements are accepted (`Editor.apply_carries`). -/

namespace ModifierToggle

/-! ## The part that changes -/

namespace Text

theorem commonFront_comm (s t : Text) : commonFront s t = commonFront t s := by
  induction s generalizing t with
  | nil => cases t <;> rfl
  | cons a s ih =>
    cases t with
    | nil => rfl
    | cons b t => rw [commonFront, commonFront, ih t, BEq.comm]

/-- No common front is longer. -/
theorem length_le_commonFront (u s t : Text) : u.length ≤ commonFront (u ++ s) (u ++ t) := by
  induction u with
  | nil => exact Nat.zero_le _
  | cons a u ih => simpa [commonFront] using ih

end Text

/-- **What two texts end with stays,** as far as it is behind what they begin with. -/
theorem Splice.between_back {x y u : Text}
    (hx : Text.commonFront (x ++ u) (y ++ u) ≤ x.length)
    (hy : Text.commonFront (x ++ u) (y ++ u) ≤ y.length) :
    ∃ front mid mid' back, x = front ++ mid ++ back ∧ y = front ++ mid' ++ back ∧
      Splice.between (x ++ u) (y ++ u) = ⟨front.length, front.length + mid.length, mid'⟩ := by
  obtain ⟨front, mid, mid', back, hold, hnew, hbetween⟩ := Splice.between_spec (x ++ u) (y ++ u)
  have hlength : u.length ≤ back.length := by
    have htail := Text.length_le_commonFront u.reverse
      (x.drop (Text.commonFront (x ++ u) (y ++ u))).reverse
      (y.drop (Text.commonFront (x ++ u) (y ++ u))).reverse
    rw [← List.reverse_append, ← List.reverse_append, ← List.drop_append_of_le_length hx,
      ← List.drop_append_of_le_length hy, List.length_reverse] at htail
    have hstop := congrArg Splice.stop hbetween
    have hsum := congrArg List.length hold
    simp only [Splice.between, List.length_append] at hstop hsum
    omega
  obtain ⟨back', rfl⟩ : u <:+ back :=
    List.suffix_of_suffix_length_le (List.suffix_append x u) ⟨front ++ mid, hold.symm⟩ hlength
  refine ⟨front, mid, mid', back', ?_, ?_, hbetween⟩
  · exact List.append_cancel_right (hold.trans (List.append_assoc _ _ _).symm)
  · exact List.append_cancel_right (hnew.trans (List.append_assoc _ _ _).symm)

namespace HeaderFrame

variable {lang : Language} {f : HeaderFrame lang} {ws vs : List Text}

/-- The line, cut behind its keyword. -/
theorem line_eq_keyword (f : HeaderFrame lang) (ws : List Text) :
    f.line ws = (f.front ws ++ f.keyword) ++ f.separator :: f.tail := by
  rw [f.line_eq]
  simp [rest]

/-- A header that begins like another one, up to the white space behind the keyword, has the same
    words. -/
theorem line_eq_of_front (hlang : lang.Regular) (hws : ∀ w ∈ ws, lang.IsModifierWord w)
    (hvs : ∀ v ∈ vs, lang.IsModifierWord v) (rest : Text)
    (h : f.line vs = f.front ws ++ (f.keyword ++ f.separator :: rest)) : f.line ws = f.line vs := by
  have hstart := f.findStart?_front hlang hvs f.tail
  have hline : f.front vs ++ (f.keyword ++ f.separator :: f.tail) = f.line vs := (f.line_eq vs).symm
  rw [hline, h, f.findStart?_front hlang hws rest] at hstart
  have hlength : (f.front ws).length = (f.front vs).length :=
    congrArg Keyword.Occurrence.start (Option.some.inj hstart)
  have hfront : f.front ws = f.front vs :=
    (List.append_inj (h.symm.trans hline.symm) hlength).1
  rw [f.line_eq, f.line_eq, hfront]

/-- Two headers differ before the end of the keyword. -/
theorem commonFront_line_le (hlang : lang.Regular) (hws : ∀ w ∈ ws, lang.IsModifierWord w)
    (hvs : ∀ v ∈ vs, lang.IsModifierWord v) (hne : f.line ws ≠ f.line vs) :
    Text.commonFront (f.line ws) (f.line vs) ≤ (f.front ws ++ f.keyword).length := by
  by_contra hlong
  apply hne
  obtain ⟨front, old, new, hold, hnew, hlength⟩ := Text.commonFront_spec (f.line ws) (f.line vs)
  have hcut : f.line ws = (f.front ws ++ f.keyword ++ [f.separator]) ++ f.tail := by
    rw [f.line_eq_keyword, List.append_assoc, List.append_assoc, List.append_assoc]
    rfl
  obtain ⟨more, rfl⟩ : f.front ws ++ f.keyword ++ [f.separator] <+: front := by
    refine List.prefix_of_prefix_length_le ⟨f.tail, hcut.symm⟩ ⟨old, hold.symm⟩ ?_
    rw [hlength, List.length_append, List.length_singleton]
    omega
  refine line_eq_of_front hlang hws hvs (more ++ new) (hnew.trans ?_)
  simp only [List.append_assoc, List.cons_append, List.nil_append]

/-- **What changes in a header lies before the end of the keyword.** -/
theorem between_line (hlang : lang.Regular) (hws : ∀ w ∈ ws, lang.IsModifierWord w)
    (hvs : ∀ v ∈ vs, lang.IsModifierWord v) (hne : f.line ws ≠ f.line vs) :
    ∃ front mid mid' back, f.front ws ++ f.keyword = front ++ mid ++ back ∧
      f.front vs ++ f.keyword = front ++ mid' ++ back ∧
      Splice.between (f.line ws) (f.line vs) = ⟨front.length, front.length + mid.length, mid'⟩ := by
  have hold := commonFront_line_le hlang hws hvs hne
  have hnew := commonFront_line_le hlang hvs hws hne.symm
  rw [Text.commonFront_comm] at hnew
  rw [f.line_eq_keyword ws, f.line_eq_keyword vs] at hold hnew ⊢
  exact Splice.between_back hold hnew

/-- Where the keyword of a header ends in a text. -/
def keywordEnd (f : HeaderFrame lang) (s : LineSite) (ws : List Text) : Nat :=
  s.before.length + (f.front ws ++ f.keyword).length

end HeaderFrame

/-! ## The cursor -/

/-- A cursor at `c` has gone to `c'` while a place at `p` has gone to `q`: a cursor that was not
    behind that place still is not, and one that was not before it has kept its distance. -/
structure Carried (p c q c' : Nat) : Prop where
  upTo : c ≤ p → c' ≤ q
  onward : p ≤ c → c' + p = c + q

namespace Carried

theorem refl (p c : Nat) : Carried p c p c := ⟨id, fun _ => rfl⟩

theorem trans {p c q c' r c'' : Nat} (h : Carried p c q c') (h' : Carried q c' r c'') :
    Carried p c r c'' := by
  refine ⟨fun hc => h'.upTo (h.upTo hc), fun hc => ?_⟩
  have hc' := h.onward hc
  have hc'' := h'.onward (by omega)
  omega

end Carried

/-- Replacing a part of a text carries the cursor along with every place behind that part. -/
theorem Buffer.splice_carried {b : Buffer} {front mid back rest : Text} (new : Text)
    (h : b.text = front ++ mid ++ (back ++ rest)) (hcursor : b.cursor ≤ b.text.length) :
    Carried (front ++ mid ++ back).length b.cursor (front ++ new ++ back).length
        (b.splice front.length mid.length new).cursor ∧
      (b.splice front.length mid.length new).cursor ≤ (front ++ new ++ (back ++ rest)).length := by
  have htext := splice_text new h
  have hsplice : (b.splice front.length mid.length new).cursor
      = min (if front.length + mid.length ≤ b.cursor then b.cursor - mid.length + new.length
          else if front.length < b.cursor then front.length + new.length else b.cursor)
        (front ++ new ++ (back ++ rest)).length := by
    rw [← htext]
    rfl
  rw [hsplice]
  rw [h] at hcursor
  simp only [List.length_append] at hcursor ⊢
  refine ⟨⟨fun hc => ?_, fun hc => ?_⟩, Nat.min_le_right _ _⟩
  · split
    · omega
    · split <;> omega
  · rw [if_pos (by omega)]
    omega

/-! ## Steps carry the cursor -/

/-- The header stands in the gap, with modifier words before its keyword, and the cursor is in the
    text. -/
structure HeaderFrame.Stands {lang : Language} (f : HeaderFrame lang) (s : LineSite)
    (ws : List Text) (b : Buffer) : Prop where
  words : ∀ w ∈ ws, lang.IsModifierWord w
  text : b.text = s.fill (f.line ws)
  cursor : b.cursor ≤ b.text.length

namespace Step

/-- The step leaves a header in the gap, and carries the cursor along with the end of its keyword.
    Nothing is said of whether it fails. -/
def Carries (s : LineSite) {lang : Language} (f : HeaderFrame lang) (g : Step) : Prop :=
  ∀ (w : Work) (ws : List Text), f.Stands s ws w.buffer →
    ∃ vs, f.Stands s vs (g w).work.buffer ∧
      Carried (f.keywordEnd s ws) w.buffer.cursor (f.keywordEnd s vs) (g w).work.buffer.cursor

variable {lang : Language} {f : HeaderFrame lang} {s : LineSite} {g h : Step}

theorem carries_of_buffer_eq (hg : ∀ w, (g w).work.buffer = w.buffer) : g.Carries s f := by
  intro w ws hstands
  rw [hg w]
  exact ⟨ws, hstands, .refl _ _⟩

theorem skip_carries : skip.Carries s f := carries_of_buffer_eq fun _ => rfl

theorem report_carries (scope : Option ToggleScope) (e : Event) : (report scope e).Carries s f :=
  carries_of_buffer_eq fun _ => rfl

theorem Carries.andThen (hg : g.Carries s f) (hh : h.Carries s f) : (g.andThen h).Carries s f := by
  intro w ws hstands
  obtain ⟨us, hus, hcarried⟩ := hg w ws hstands
  unfold Step.andThen
  dsimp only
  split
  · exact ⟨us, hus, hcarried⟩
  · obtain ⟨vs, hvs, hcarried'⟩ := hh _ us hus
    exact ⟨vs, hvs, hcarried.trans hcarried'⟩

theorem Carries.mapError (hg : g.Carries s f) (context : EditError → EditError) :
    (g.mapError context).Carries s f := hg

/-- Groups are no part of the text, and the cursor does not see them. -/
theorem Carries.grouped (hg : g.Carries s f) : (Editor.grouped g).Carries s f := by
  intro w ws hstands
  have hend : ∀ b : Buffer, b.endGroup.text = b.text ∧ b.endGroup.cursor = b.cursor := by
    intro b
    unfold Buffer.endGroup
    split
    · exact ⟨rfl, rfl⟩
    · split <;> exact ⟨rfl, rfl⟩
    · exact ⟨rfl, rfl⟩
  obtain ⟨vs, hvs, hcarried⟩ := hg { w with buffer := w.buffer.beginGroup } ws
    ⟨hstands.words, hstands.text, hstands.cursor⟩
  obtain ⟨htext, hcursor⟩ := hend (g { w with buffer := w.buffer.beginGroup }).work.buffer
  refine ⟨vs, ⟨hvs.words, htext.trans hvs.text, ?_⟩, ?_⟩
  · exact hcursor.symm ▸ htext.symm ▸ hvs.cursor
  · exact hcursor.symm ▸ hcarried

/-- **Writing other words into a header carries the cursor.** If the replacement is refused, the
    header keeps the words it has. -/
theorem setLine_carries (scope : Option ToggleScope) (hlang : lang.Regular) (hhost : s.Hosts f)
    {ws vs : List Text} (hvs : ∀ v ∈ vs, lang.IsModifierWord v) (code : Text) {w : Work}
    (hstands : f.Stands s ws w.buffer) :
    ∃ us, f.Stands s us
        (setLine scope ⟨s.above.length, f.line ws, code⟩ (f.line vs) w).work.buffer ∧
      Carried (f.keywordEnd s ws) w.buffer.cursor (f.keywordEnd s us)
        (setLine scope ⟨s.above.length, f.line ws, code⟩ (f.line vs) w).work.buffer.cursor := by
  unfold setLine
  split
  · exact ⟨ws, hstands, .refl _ _⟩
  · next hne =>
    obtain ⟨front, mid, mid', back, hold, hnew, hbetween⟩ :=
      HeaderFrame.between_line hlang hstands.words hvs (Ne.symm hne)
    have hcut : ∀ us, s.fill (f.line us)
        = s.before ++ (f.front us ++ f.keyword) ++ (f.separator :: f.tail ++ s.after) := by
      intro us
      rw [LineSite.fill, f.line_eq_keyword]
      simp only [List.append_assoc]
    have htext : w.buffer.text = (s.before ++ front) ++ mid
        ++ (back ++ (f.separator :: f.tail ++ s.after)) := by
      rw [hstands.text, hcut, hold]
      simp only [List.append_assoc]
    have hstart : w.buffer.lineStart (s.above.length : Nat) = s.before.length := by
      rw [Buffer.lineStart, (hhost ws hstands.words).lineSpan hstands.text]
    obtain ⟨b', hb', hb'text, hb'cursor⟩ := Buffer.replaceRange_middle mid' htext
    rw [List.length_append, Nat.add_assoc] at hb'
    simp only [hstart, hbetween]
    split
    · exact ⟨ws, hstands, .refl _ _⟩
    · next w' hw' =>
      obtain rfl : b' = w'.buffer :=
        Except.ok.inj (hb'.symm.trans (Work.replaceRange_buffer hw'))
      show ∃ us, f.Stands s us w'.buffer ∧
        Carried (f.keywordEnd s ws) w.buffer.cursor (f.keywordEnd s us) w'.buffer.cursor
      rcases hb'cursor with hsame | hcursor
      · rw [hsame]
        exact ⟨ws, hstands, .refl _ _⟩
      · obtain ⟨hcarried, hin⟩ := Buffer.splice_carried mid' htext hstands.cursor
        rw [← hcursor, ← hb'text] at hin
        refine ⟨vs, ⟨hvs, ?_, hin⟩, ?_⟩
        · rw [hb'text, hcut, hnew]
          simp only [List.append_assoc]
        · rw [HeaderFrame.keywordEnd, HeaderFrame.keywordEnd, hold, hnew, hcursor]
          simpa only [List.length_append, Nat.add_assoc] using hcarried

end Step

/-! ## Line edits of a header -/

/-- What the line edit makes of a header is a header with other words. -/
def LineEdit.KeepsForm (r : LineEdit) {lang : Language} (f : HeaderFrame lang) : Prop :=
  ∀ (s : LineSite) (ws : List Text) (y : Text), (∀ w ∈ ws, lang.IsModifierWord w) →
    r (s.codeLine (f.line ws)) = some y → ∃ vs, (∀ v ∈ vs, lang.IsModifierWord v) ∧ y = f.line vs

namespace LineEdit

variable {lang : Language} {f : HeaderFrame lang}

/-- A line edit that gives certain words wherever it takes a header. -/
theorem keepsForm_of_ite {r : LineEdit} {c : List Text → Prop} [DecidablePred c]
    {words : List Text → List Text}
    (hr : ∀ (s : LineSite) (ws : List Text), (∀ w ∈ ws, lang.IsModifierWord w) →
      r (s.codeLine (f.line ws)) = if c ws then some (f.line (words ws)) else none)
    (hwords : ∀ ws : List Text, (∀ w ∈ ws, lang.IsModifierWord w) →
      ∀ v ∈ words ws, lang.IsModifierWord v) : r.KeepsForm f := by
  intro s ws y hws hy
  rw [hr s ws hws] at hy
  split at hy
  · exact ⟨words ws, hwords ws hws, (Option.some.inj hy).symm⟩
  · cases hy

variable (hlang : lang.Regular)

include hlang

theorem addToken_keepsForm {tok : Token} (htok : tok ∈ lang.tokens) :
    (addToken lang tok).KeepsForm f := by
  intro s ws y hws hy
  rw [f.addToken_line hlang hws] at hy
  refine ⟨ws ++ [tok.keyword], fun v hv => ?_, (Option.some.inj hy).symm⟩
  rcases List.mem_append.1 hv with hv | hv
  · exact hws v hv
  · exact List.mem_singleton.1 hv ▸ hlang.token_word tok htok

theorem removeToken_keepsForm {tok : Token} (htok : tok ∈ lang.tokens) :
    (removeToken lang tok).KeepsForm f :=
  keepsForm_of_ite (fun _ _ hws => f.removeToken_line hlang hws htok)
    fun _ hws v hv => hws v (List.mem_of_mem_erase hv)

theorem place?_keepsForm {tok : Token} (htok : tok ∈ lang.tokens) {r : LineEdit}
    (hr : place? lang tok = some r) : r.KeepsForm f :=
  keepsForm_of_ite (fun _ _ hws => f.place?_line hlang hws htok hr)
    fun _ hws => HeaderWords.isModifierWord_of_perm (HeaderWords.place_perm _ _ _) hws

theorem orderModifiers_keepsForm : (orderModifiers lang).KeepsForm f := by
  intro s ws y hws hy
  rw [f.orderModifiers_line hlang hws] at hy
  exact ⟨_, HeaderWords.isModifierWord_of_perm (HeaderWords.ordered_perm lang ws) hws,
    (Option.some.inj hy).symm⟩

theorem replaceVisibility_keepsForm {keyword : Text}
    (hkeyword : keyword = [] ∨ lang.IsModifierWord keyword) :
    (replaceVisibility lang keyword).KeepsForm f := by
  intro s ws y hws hy
  rw [f.replaceVisibility_line hlang hws] at hy
  split at hy
  · next hany =>
    have hwords := HeaderWords.withVisibility_word hkeyword hws
    rw [HeaderWords.withVisibility, if_pos hany] at hwords
    exact ⟨_, hwords, (Option.some.inj hy).symm⟩
  · cases hy

theorem insertVisibility_keepsForm {keyword : Text} (hkeyword : lang.IsModifierWord keyword) :
    (insertVisibility lang keyword).KeepsForm f := by
  intro s ws y hws hy
  rw [f.insertVisibility_line hlang hws] at hy
  exact ⟨keyword :: ws, List.forall_mem_cons.2 ⟨hkeyword, hws⟩, (Option.some.inj hy).symm⟩

end LineEdit

/-- A step that changes the header line carries the cursor. -/
theorem Step.editLine_carries {lang : Language} {f : HeaderFrame lang} {s : LineSite} {span : Span}
    (hlang : lang.Regular) (hhost : s.Hosts f) (hspan : s.Ends span) (scope : Option ToggleScope)
    {r : LineEdit} (hneeds : r.NeedsWord) (hform : r.KeepsForm f) {otherwise : Step}
    (ho : otherwise.Carries s f) : (editLine scope span r otherwise).Carries s f := by
  intro w ws hstands
  have hfirst := hspan.first?_fill hneeds (hhost ws hstands.words) (f.line_ne_nil ws) hstands.text
  rw [editLine, hfirst]
  cases hr : r (s.codeLine (f.line ws)) with
  | none => exact ho w ws hstands
  | some y =>
    obtain ⟨vs, hvs, rfl⟩ := hform s ws y hstands.words hr
    exact setLine_carries scope hlang hhost hvs _ hstands

namespace Editor

open Step

variable {lang : Language} {scope : Option ToggleScope} {f : HeaderFrame lang} {s : LineSite}
  {span : Span} (hlang : lang.Regular) (hhost : s.Hosts f) (hspan : s.Ends span)

include hlang hhost hspan

theorem addModifier_carries (m : Modifier) :
    (addModifier ⟨lang, scope⟩ span m).Carries s f := by
  unfold addModifier
  split
  · next tok htok =>
    exact editLine_carries hlang hhost hspan _ (LineEdit.addToken_needsWord hlang tok)
      (LineEdit.addToken_keepsForm hlang (HeaderWords.token_mem htok)) skip_carries
  · exact report_carries _ _

theorem removeModifier_carries (m : Modifier) :
    (removeModifier ⟨lang, scope⟩ span m).Carries s f := by
  unfold removeModifier
  split
  · next tok htok =>
    have hmem := HeaderWords.token_mem htok
    exact editLine_carries hlang hhost hspan _ (LineEdit.removeToken_needsWord hlang hmem)
      (LineEdit.removeToken_keepsForm hlang hmem) skip_carries
  · exact skip_carries

theorem changeAccess_carries (kind : Kind) {vis : Text} (hvis : lang.isVisibility vis = true) :
    (changeAccess ⟨lang, scope⟩ span kind vis).Carries s f := by
  have hkeyword := (HeaderWords.visibilityKeyword_vis hvis kind).imp_right hlang.visibility_word
  unfold changeAccess
  revert hkeyword
  generalize lang.visibilityKeyword kind vis = keyword
  intro hkeyword
  refine editLine_carries hlang hhost hspan _ (LineEdit.replaceVisibility_needsWord hlang keyword)
    (LineEdit.replaceVisibility_keepsForm hlang hkeyword) ?_
  split
  · exact skip_carries
  · next hne =>
    have hword : lang.IsModifierWord keyword := hkeyword.resolve_left (by simpa using hne)
    exact editLine_carries hlang hhost hspan _ (LineEdit.insertVisibility_needsWord hlang keyword)
      (LineEdit.insertVisibility_keepsForm hlang hword) skip_carries

theorem fixPlacement_carries (m : Modifier) :
    (fixPlacement ⟨lang, scope⟩ m span).Carries s f := by
  unfold fixPlacement
  split
  · exact skip_carries
  · next tok htok =>
    have hmem := HeaderWords.token_mem htok
    split
    · exact skip_carries
    · next r hr =>
      exact editLine_carries hlang hhost hspan _ (LineEdit.place?_needsWord hlang hmem hr)
        (LineEdit.place?_keepsForm hlang hmem hr) (report_carries _ _)

theorem normalize_carries : (normalize ⟨lang, scope⟩ span).Carries s f :=
  normalize_induction _ span skip_carries (fun _ _ => Carries.andThen)
    (editLine_carries hlang hhost hspan _ (LineEdit.orderModifiers_needsWord hlang)
      (LineEdit.orderModifiers_keepsForm hlang) skip_carries)
    (fixPlacement_carries hlang hhost hspan)

theorem runJob_carries (kind : Kind) {vis : Text} {job : Job}
    (hvis : job = .changeAccess → lang.isVisibility vis = true) :
    (runJob ⟨lang, scope⟩ span kind vis job).Carries s f :=
  runJob_induction _ span kind vis skip_carries (fun _ _ => Carries.andThen)
    (addModifier_carries hlang hhost hspan) (removeModifier_carries hlang hhost hspan)
    (fun _ => carries_of_buffer_eq fun _ => rfl)
    fun hjob => changeAccess_carries hlang hhost hspan kind (hvis hjob)

omit hspan in
/-- **Applying a toggle carries the cursor.** -/
theorem apply_carries {action : Action} {target : Inspection}
    (htarget : action.target = some target) (hspan : s.Ends target.span)
    (hvis : action.job = .changeAccess → lang.isVisibility action.visibility = true) :
    (apply ⟨lang, scope⟩ action).Carries s f := by
  simp only [apply, htarget]
  exact .grouped <|
    .andThen (.mapError (runJob_carries hlang hhost hspan _ hvis) _) <|
    .andThen (.mapError (normalize_carries hlang hhost hspan) _) (report_carries _ _)

end Editor

end ModifierToggle
