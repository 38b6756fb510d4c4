import ModifierToggle.Proofs.JobEffects
import ModifierToggle.Proofs.NormalForm

set_option autoImplicit false

/-! # Adding a modifier and removing it again

Adding a modifier puts its token in front of the keyword, and restoring the canonical layout may
then move that token away from there, or `inline` past it. None of this matters once the token is
taken out again: in a Haxe header that is in the canonical layout, every pass moves either the new
token or `inline` past the new token, and so leaves the other words in the order they had
(`HeaderWords.Haxe.erase_normalized_concat`). -/

namespace ModifierToggle

/-! ## The words -/

namespace HeaderWords

open LineEdit (annotates)

variable {lang : Language} {k : Text} {ws : List Text}

theorem erase_concat (hk : k ∉ ws) : (ws ++ [k]).erase k = ws := by
  rw [erase_split hk, List.append_nil]

/-- A word that is no visibility may come behind the others. -/
theorem VisibilityLeads.concat (hvis : ∀ v, lang.isVisibility v = true → annotates v = false)
    (h : VisibilityLeads lang ws) (hk : lang.isVisibility k = false) :
    VisibilityLeads lang (ws ++ [k]) := by
  intro hany
  have hany' : ws.any lang.isVisibility = true := by simpa [hk] using hany
  obtain ⟨before, v, after, rfl, hbefore, hv⟩ := h.exists_split hany'
  rw [List.append_assoc, List.cons_append] at hany ⊢
  exact visibilityLeads_split hbefore hv (hvis v hv) hany

namespace Haxe

variable {opts : LanguageOptions}

/-- Words that are in the canonical layout, with nothing but `inline` behind an `inline`. -/
structure Settled (opts : LanguageOptions) (ws : List Text) : Prop extends Canonical opts ws where
  inlined_closing : Closing inlined ws

theorem settled_of_normalized (h : normalized (Language.haxe opts) ws = ws) :
    Settled opts ws := by
  have hcanonical := canonical_normalized opts ws
  have htwice := normalized_normalized opts ws
  rw [h] at hcanonical htwice
  rw [h] at htwice
  exact ⟨hcanonical, moveLast_eq_self_iff.1 htwice.symm⟩

/-- A new last word that is neither metadata nor a visibility is at most passed by `inline`. -/
theorem normalized_concat (h : Settled opts ws) (hfinal : k ≠ final)
    (hnoCompletion : k ≠ noCompletion) (hk : (Language.haxe opts).isVisibility k = false) :
    normalized (Language.haxe opts) (ws ++ [k]) = moveLast inlined (ws ++ [k]) := by
  have hvis := annotates_of_isVisibility opts
  have hmem : ∀ {x : Text}, k ≠ x → x ∈ ws ++ [k] → x ∈ ws := by
    intro x hne hx
    rcases List.mem_append.1 hx with hx | hx
    · exact hx
    · exact absurd (List.mem_singleton.1 hx).symm hne
  have hfirst : moveFirst final (ws ++ [k]) = ws ++ [k] :=
    moveFirst_eq_self fun hx => mem_lead_append (h.final_leads (hmem hfinal hx)) _
  have hordered : (if opts.startWithModifiers then
      ordered (Language.haxe opts) (moveFirst final (ws ++ [k]))
      else moveFirst final (ws ++ [k])) = ws ++ [k] := by
    rw [hfirst]
    split
    · next hswm => exact ordered_eq_self hvis ((h.visibility_leads hswm).concat hvis hk)
    · rfl
  rw [normalized_eq, hordered]
  refine moveFirst_eq_self fun hx => mem_lead_moveLast (by decide) ?_
  exact mem_lead_append (h.noCompletion_leads
    (hmem hnoCompletion ((moveLast_perm _ _).mem_iff.1 hx))) _

/-- A new `@:final` moves to the front, and is at most passed by `inline` while it does not. -/
theorem normalized_concat_final (h : Settled opts ws) :
    normalized (Language.haxe opts) (ws ++ [final])
      = moveLast inlined (moveFirst final (ws ++ [final])) := by
  have hvis := annotates_of_isVisibility opts
  have hordered : (if opts.startWithModifiers then
      ordered (Language.haxe opts) (moveFirst final (ws ++ [final]))
      else moveFirst final (ws ++ [final])) = moveFirst final (ws ++ [final]) := by
    split
    · next hswm =>
      have hconcat := (h.visibility_leads hswm).concat hvis
        (annotation_notVisibility opts (k := final) (by decide))
      exact ordered_eq_self hvis (hconcat.moveFirst hvis (by decide))
    · rfl
  rw [normalized_eq, hordered]
  refine moveFirst_eq_self fun hx => mem_lead_moveLast (by decide) ?_
  have hx' : noCompletion ∈ ws ++ [final] :=
    (moveFirst_perm _ _).mem_iff.1 ((moveLast_perm _ _).mem_iff.1 hx)
  have hmem : noCompletion ∈ ws := by
    rcases List.mem_append.1 hx' with hx' | hx'
    · exact hx'
    · exact absurd (List.mem_singleton.1 hx') (by decide)
  exact mem_lead_moveFirst (by decide) (mem_lead_append (h.noCompletion_leads hmem) _)

/-- A new `@:noCompletion` is passed by `inline` before it moves to the front. -/
theorem normalized_concat_noCompletion (h : Settled opts ws) :
    normalized (Language.haxe opts) (ws ++ [noCompletion])
      = moveFirst noCompletion (moveLast inlined (ws ++ [noCompletion])) := by
  have hvis := annotates_of_isVisibility opts
  have hfirst : moveFirst final (ws ++ [noCompletion]) = ws ++ [noCompletion] := by
    refine moveFirst_eq_self fun hx => ?_
    rcases List.mem_append.1 hx with hx | hx
    · exact mem_lead_append (h.final_leads hx) _
    · exact absurd (List.mem_singleton.1 hx) (by decide)
  rw [normalized_eq, hfirst]
  split
  · next hswm =>
    rw [ordered_eq_self hvis ((h.visibility_leads hswm).concat hvis
      (annotation_notVisibility opts (by decide)))]
  · rfl

/-- **Taking a new word out of the canonical layout gives the other words back.** -/
theorem erase_normalized_concat (h : Settled opts ws) (hk : k ∉ ws)
    (hvisibility : (Language.haxe opts).isVisibility k = false) :
    (normalized (Language.haxe opts) (ws ++ [k])).erase k = ws := by
  have hlast : moveLast inlined ws = ws := moveLast_eq_self_iff.2 h.inlined_closing
  by_cases hinlined : k = inlined
  · -- the new word is the last one, and stays there
    subst hinlined
    have hclosing : Closing inlined (ws ++ [inlined]) := closing_concat_iff.2 h.inlined_closing
    rw [normalized_concat h (by decide) (by decide) hvisibility,
      moveLast_eq_self_iff.2 hclosing, erase_concat hk]
  · have hpassed : (moveLast inlined (ws ++ [k])).erase k = ws := by
      rw [erase_moveLast hinlined, erase_concat hk, hlast]
    by_cases hfinal : k = final
    · subst hfinal
      rw [normalized_concat_final h, erase_moveLast hinlined, erase_moveFirst, erase_concat hk,
        hlast]
    · by_cases hnoCompletion : k = noCompletion
      · subst hnoCompletion
        rw [normalized_concat_noCompletion h, erase_moveFirst, hpassed]
      · rw [normalized_concat h hfinal hnoCompletion hvisibility, hpassed]

section

variable {m : Modifier} {tok : Token} (htok : (Language.haxe opts).token? m = some tok)
  {job : Job} (kind : Kind) (vis : Text)

include htok

/-- A job that adds a modifier leads to the canonical layout of the words with its token, if a
    method that becomes static is not final. -/
theorem normalized_afterJob_adds (hjob : job.adds? = some m)
    (hstatic : m = .static → kind = .method → final ∉ ws) :
    normalized (Language.haxe opts) (afterJob (Language.haxe opts) kind vis job ws)
      = normalized (Language.haxe opts) (ws ++ [tok.keyword]) := by
  have hkept : (if job = .addStatic ∧ kind = .method then
      without (Language.haxe opts) .final ws else ws) = ws := by
    split
    · next hmethod =>
      rw [hmethod.1] at hjob
      exact List.erase_of_not_mem (hstatic (Option.some.inj hjob).symm hmethod.2)
    · rfl
  rw [afterJob_adds hjob, hkept, withToken, htok]

/-- From there, the job that removes the modifier leads back. -/
theorem normalized_afterJob_removes (hjob : job.removes? = some m)
    (hws : normalized (Language.haxe opts) ws = ws) (hnew : tok.keyword ∉ ws) :
    normalized (Language.haxe opts) (afterJob (Language.haxe opts) kind vis job
      (normalized (Language.haxe opts) (ws ++ [tok.keyword]))) = ws := by
  have herase := erase_normalized_concat (settled_of_normalized hws) hnew
    ((Language.haxe_orderly opts).token_notVisibility tok (token_mem htok))
  rw [afterJob_removes hjob, without, htok]
  exact (congrArg _ herase).trans hws

end

end Haxe

end HeaderWords

/-! ## The text -/

namespace Editor

open HeaderWords

section

variable {lang : Language} {scope : Option ToggleScope} {f : HeaderFrame lang} {s : LineSite}
  {ws : List Text} (hlang : lang.Regular) (hhost : s.Hosts f)
  (hws : ∀ w ∈ ws, lang.IsModifierWord w)

include hlang hhost hws

/-- Applying a job that is for a modifier. -/
theorem apply_modifier_rewrites {a : Action} {target : Inspection} {m : Modifier}
    (htarget : a.target = some target) (hspan : s.Ends target.span)
    (hjob : a.job.adds? = some m ∨ a.job.removes? = some m) :
    (apply ⟨lang, scope⟩ a).Rewrites s (f.line ws)
      (f.line (normalized lang (afterJob lang target.kind a.visibility a.job ws))) := by
  refine apply_rewrites hlang hhost hws htarget hspan ?_ ?_
  · intro k hk
    rw [hk] at hjob
    rcases hjob with hjob | hjob <;> cases hjob
  · intro haccess
    rw [haccess] at hjob
    rcases hjob with hjob | hjob <;> cases hjob

/-- Words of a line that restoring the canonical layout leaves alone are in that layout. -/
theorem normalized_eq_of_normalize {span : Span} (hspan : s.Ends span) {w : Work}
    (hw : w.writesLeft = none) (hfill : w.buffer.text = s.fill (f.line ws))
    (hsame : (normalize ⟨lang, scope⟩ span w).work.buffer.text = w.buffer.text) :
    normalized lang ws = ws := by
  have hrewrites : (normalize ⟨lang, scope⟩ span).Rewrites s (f.line ws)
      (f.line (normalized lang ws)) := normalize_rewrites hlang hhost hspan hws
  have hline := (hrewrites w hw hfill).2.2
  rw [hsame, hfill] at hline
  have hvs := isModifierWord_of_perm (normalized_perm lang ws) hws
  exact (f.line_injective (fun v hv => (hws v hv).1) (fun v hv => (hvs v hv).1)
    (List.append_cancel_left (List.append_cancel_right hline))).symm

end

/-- **Adding a modifier and removing it again restores the text.** In a Haxe table, take a
    declaration whose header is in its usual form and which restoring the canonical layout leaves as
    it is. If the token of a modifier is not among its words, and neither is `@:final` where a
    method is to become static, then the job that adds the modifier, followed by the job that takes
    it away from the declaration as it is inspected then, gives back the text there was. In between,
    the modifier shows. -/
theorem apply_adding_removing (opts : LanguageOptions) {found : Found} (hkind : found.kind ≠ .none)
    {n : Nat} {f : HeaderFrame (Language.haxe opts)} {ws : List Text} {w : Work}
    (hw : w.writesLeft = none) (hheader : w.buffer.HeaderAt found n f ws)
    (hsettled : (normalize ⟨Language.haxe opts, none⟩ ⟨found.target.lineFrom, n⟩ w).work.buffer.text
      = w.buffer.text)
    {m : Modifier} {tok : Token} (htok : (Language.haxe opts).token? m = some tok)
    (hnew : tok.keyword ∉ ws)
    (hstatic : m = .static → found.kind = .method → Haxe.final ∉ ws)
    {adding removing : Job} (hadds : adding.adds? = some m)
    (hremoves : removing.removes? = some m) :
    ∃ s, w.buffer.inspect? (Language.haxe opts) found = some s ∧
      ∀ a : Action, a.target = some s → a.job = adding → ∀ scope : Option ToggleScope,
        let first := apply ⟨Language.haxe opts, scope⟩ a w
        first.error = none ∧
        ∃ s', first.work.buffer.inspect? (Language.haxe opts) found = some s' ∧ s'.has m = true ∧
          ∀ a' : Action, a'.target = some s' → a'.job = removing →
            let second := apply ⟨Language.haxe opts, scope⟩ a' first.work
            second.error = none ∧ second.work.buffer.text = w.buffer.text := by
  have hlang := Language.haxe_orderly opts
  have hregular := hlang.toRegular
  have hmem := token_mem htok
  obtain ⟨site, hlength, hfill, hhost, hquiet⟩ := hheader.exists_site
  have hends : site.Ends ⟨found.target.lineFrom, n⟩ :=
    ⟨hquiet, hlength ▸ hheader.from_le, congrArg Int.ofNat hlength.symm⟩
  have hws := normalized_eq_of_normalize hregular hhost hheader.words hends hw hfill hsettled
  -- the words in between
  obtain ⟨vs, hvs⟩ : ∃ vs, vs = normalized (Language.haxe opts) (ws ++ [tok.keyword]) := ⟨_, rfl⟩
  have hperm : vs.Perm (ws ++ [tok.keyword]) := hvs ▸ normalized_perm (Language.haxe opts) _
  have hwords : ∀ v ∈ vs, (Language.haxe opts).IsModifierWord v := by
    refine isModifierWord_of_perm hperm fun v hv => ?_
    rcases List.mem_append.1 hv with hv | hv
    · exact hheader.words v hv
    · exact List.mem_singleton.1 hv ▸ hregular.token_word tok hmem
  obtain ⟨s, hs, hfound, hskind, hline, -⟩ := hheader.exists_inspection hregular hkind
  refine ⟨s, hs, fun a htarget hjob scope => ?_⟩
  have hspan : s.span = ⟨found.target.lineFrom, n⟩ := by
    rw [Inspection.span, Inspection.target, hfound, hline]
  have hfirst : (apply ⟨Language.haxe opts, scope⟩ a).Rewrites site (f.line ws) (f.line vs) := by
    rw [hvs, ← Haxe.normalized_afterJob_adds htok s.kind a.visibility (hjob ▸ hadds)
      fun hm hmethod => hstatic hm (hskind ▸ hmethod)]
    exact apply_modifier_rewrites hregular hhost hheader.words htarget (hspan ▸ hends)
      (Or.inl (hjob ▸ hadds))
  obtain ⟨herror, hw', hfilled⟩ := hfirst w hw hfill
  have hheader' : (apply ⟨Language.haxe opts, scope⟩ a w).work.buffer.HeaderAt found n f vs := by
    refine hheader.rewrite hwords ?_
    rw [hfilled, ← hlength, (hhost ws hheader.words).withLine hfill]
  obtain ⟨s', hs', hfound', hskind', hline', hhas⟩ := hheader'.exists_inspection hregular hkind
  have hshows : has (Language.haxe opts) vs m = true := by
    rw [has_of_token htok, List.contains_iff_mem, hperm.mem_iff]
    simp
  refine ⟨herror, s', hs', hhas m hshows, fun a' htarget' hjob' => ?_⟩
  have hspan' : s'.span = ⟨found.target.lineFrom, n⟩ := by
    rw [Inspection.span, Inspection.target, hfound', hline']
  have hsecond : (apply ⟨Language.haxe opts, scope⟩ a').Rewrites site (f.line vs) (f.line ws) := by
    have hback := Haxe.normalized_afterJob_removes htok s'.kind a'.visibility (hjob' ▸ hremoves)
      hws hnew
    rw [← hvs] at hback
    rw [← hback]
    exact apply_modifier_rewrites hregular hhost hwords htarget' (hspan' ▸ hends)
      (Or.inr (hjob' ▸ hremoves))
  obtain ⟨herror', -, hfilled'⟩ := hsecond _ hw' hfilled
  exact ⟨herror', hfilled'.trans hfill.symm⟩

/-- The words of a method header in the canonical layout, which `inline` ends. -/
def inlineMethodWords : List Text := [utf8 "@:keep", utf8 "private", utf8 "inline"]

/-- A class with a method that has these words. -/
def inlineMethodWork : Work :=
  { buffer := Buffer.ofText
      (utf8 "class A \x7b\n" ++ methodFrame.line inlineMethodWords ++ utf8 "\n\x7d") }

/-- The method, as the engine reports it. -/
def inlineMethod : Found where
  enclosing := { declaration := { name := utf8 "A", lineFrom := 0, lineTo := 2 } }
  member := some { name := utf8 "f", lineFrom := 1, lineTo := 1, flags := .function }

/-- The method becomes static, with `inline` moved past the new word, and non-static again. -/
theorem apply_adding_removing_static :
    inlineMethod.kind ≠ .none ∧
    inlineMethodWork.buffer.HeaderAt inlineMethod 1 methodFrame inlineMethodWords ∧
    (normalize ⟨Language.haxe visibilityLeading, none⟩ ⟨1, (1 : Nat)⟩
      inlineMethodWork).work.buffer.text = inlineMethodWork.buffer.text ∧
    ∃ s s', inlineMethodWork.buffer.inspect? (Language.haxe visibilityLeading) inlineMethod
        = some s ∧
      let ed : Editor := ⟨Language.haxe visibilityLeading, none⟩
      let first := ed.apply { label := [], job := .addStatic, target := some s } inlineMethodWork
      first.work.buffer.text ≠ inlineMethodWork.buffer.text ∧
      first.work.buffer.inspect? (Language.haxe visibilityLeading) inlineMethod = some s' ∧
      s'.has .static = true ∧
      (ed.apply { label := [], job := .removeStatic, target := some s' }
        first.work).work.buffer.text = inlineMethodWork.buffer.text := by
  have hheader : inlineMethodWork.buffer.HeaderAt inlineMethod 1 methodFrame inlineMethodWords :=
    ⟨by decide, by decide, by decide, by decide, fun _ hcode => absurd hcode List.not_mem_nil, rfl⟩
  have hkind : inlineMethod.kind ≠ .none := by decide
  have hsettled : (normalize ⟨Language.haxe visibilityLeading, none⟩ ⟨1, (1 : Nat)⟩
      inlineMethodWork).work.buffer.text = inlineMethodWork.buffer.text := by decide
  have htok : (Language.haxe visibilityLeading).token? .static
      = some (Token.new .static (utf8 "static") .leadingSpecial .free [.method, .field]) := by
    decide
  have hadds : Job.addStatic.adds? = some .static := rfl
  have hremoves : Job.removeStatic.removes? = some .static := rfl
  obtain ⟨s, hs, happly⟩ := apply_adding_removing visibilityLeading hkind rfl hheader hsettled
    htok (by decide) (fun _ _ => by decide) hadds hremoves
  obtain ⟨-, s', hs', hhas, hback⟩ := happly
    { label := [], job := .addStatic, target := some s } rfl rfl none
  have hchanges : (inlineMethodWork.buffer.inspect? (Language.haxe visibilityLeading)
      inlineMethod).all (fun s => (apply ⟨Language.haxe visibilityLeading, none⟩
        { label := [], job := .addStatic, target := some s } inlineMethodWork).work.buffer.text
          ≠ inlineMethodWork.buffer.text) = true := by decide
  rw [hs, Option.all_some, decide_eq_true_eq] at hchanges
  exact ⟨hkind, hheader, hsettled, s, s', hs, hchanges, hs', hhas, (hback _ rfl rfl).2⟩

end Editor

end ModifierToggle
