import ModifierToggle.Proofs.HeaderInspection
import ModifierToggle.Proofs.Tables

set_option autoImplicit false

/-! # What jobs do to the words of a header

A job adds the token of a modifier, takes one away, or changes the visibility. Provided the words
have each token at most once and at most one visibility (`HeaderWords.Once`), it does so and nothing
else: afterwards the words say what the job is for, and about all other modifiers what they said
before (`HeaderWords.has_afterJob`, `HeaderWords.visibility_afterJob`), and words that mean nothing
to it stay in their order (`HeaderWords.others_afterJob`). The one exception is in the job itself: a
method that becomes static loses "final". -/

namespace ModifierToggle

namespace Job

/-- The modifier a job adds. -/
def adds? : Job → Option Modifier
  | .makeClassFinal | .makeMethodFinal => some .final
  | .makeClassExternal => some .external
  | .addStatic => some .static
  | .addInline => some .inlined
  | .addNoCompletion => some .noCompletion
  | _ => none

/-- The modifier a job takes away. -/
def removes? : Job → Option Modifier
  | .makeClassNotFinal | .makeMethodNotFinal => some .final
  | .makeClassNotExternal => some .external
  | .removeStatic => some .static
  | .removeInline => some .inlined
  | .removeNoCompletion => some .noCompletion
  | _ => none

/-- Whether a declaration of a kind has a modifier after a job; `none` if the job leaves that as it
    is. -/
def effect? (kind : Kind) (job : Job) (m : Modifier) : Option Bool :=
  if job.adds? = some m then some true
  else if job.removes? = some m ∨ (job = .addStatic ∧ kind = .method ∧ m = .final) then some false
  else none

theorem removes?_of_adds? {job : Job} {m : Modifier} (h : job.adds? = some m) :
    job.removes? = none := by
  cases job <;> cases h <;> rfl

theorem adds?_of_removes? {job : Job} {m : Modifier} (h : job.removes? = some m) :
    job.adds? = none := by
  cases job <;> cases h <;> rfl

/-- A job that makes sense for a declaration with the modifiers `has`: it changes the visibility to
    one of the language, adds a modifier of the language that is not there, or takes one away. -/
inductive Offered (lang : Language) (has : Modifier → Bool) (vis : Text) : Job → Prop where
  | access : lang.isVisibility vis = true → Offered lang has vis .changeAccess
  | adding {job : Job} {m : Modifier} {tok : Token} : job.adds? = some m → has m = false →
      lang.token? m = some tok → Offered lang has vis job
  | removing {job : Job} {m : Modifier} : job.removes? = some m → Offered lang has vis job

end Job

namespace HeaderWords

open LineEdit (annotates)

variable {lang : Language} {ws vs : List Text} {m m' : Modifier} {tok : Token}

/-- Each token is among the words at most once, and at most one visibility. -/
structure Once (lang : Language) (ws : List Text) : Prop where
  token : ∀ tok ∈ lang.tokens, ws.count tok.keyword ≤ 1
  visibility : ws.countP lang.isVisibility ≤ 1

/-! ## The order of words does not matter -/

theorem Once.perm (h : Once lang ws) (hperm : vs.Perm ws) : Once lang vs where
  token tok htok := hperm.count_eq tok.keyword ▸ h.token tok htok
  visibility := hperm.countP_eq lang.isVisibility ▸ h.visibility

theorem has_perm (hperm : vs.Perm ws) (m : Modifier) : has lang vs m = has lang ws m := by
  unfold has
  cases lang.token? m with
  | none => rfl
  | some tok =>
    rw [Option.any_some, Option.any_some, Bool.eq_iff_iff, List.contains_iff_mem,
      List.contains_iff_mem, hperm.mem_iff]

theorem visibility_perm (h : Once lang ws) (hperm : vs.Perm ws) (kind : Kind) :
    visibility lang kind vs = visibility lang kind ws := by
  -- a list of at most one word has no other order
  have hfilter : vs.filter lang.isVisibility = ws.filter lang.isVisibility := by
    have hlength : (ws.filter lang.isVisibility).length ≤ 1 := by
      rw [← List.countP_eq_length_filter]
      exact h.visibility
    have hp := hperm.filter lang.isVisibility
    generalize ws.filter lang.isVisibility = us at hlength hp
    cases us with
    | nil => exact List.perm_nil.1 hp
    | cons u us =>
      have hnil : us = [] := by
        rw [List.length_cons] at hlength
        exact List.length_eq_zero_iff.1 (by omega)
      rw [hnil] at hp ⊢
      exact List.perm_singleton.1 hp
  rw [visibility, visibility, ← List.head?_filter, ← List.head?_filter, hfilter]

/-! ## Tokens -/

theorem has_of_token (htok : lang.token? m = some tok) :
    has lang ws m = ws.contains tok.keyword := by
  rw [has, htok, Option.any_some]

/-- Words that differ in words other than a token have the same to say about it. -/
theorem has_congr (h : ∀ tok, lang.token? m = some tok → (tok.keyword ∈ vs ↔ tok.keyword ∈ ws)) :
    has lang vs m = has lang ws m := by
  unfold has
  cases htok : lang.token? m with
  | none => rfl
  | some tok =>
    rw [Option.any_some, Option.any_some, Bool.eq_iff_iff, List.contains_iff_mem,
      List.contains_iff_mem, h tok htok]

theorem keyword_ne_of_ne (hlang : lang.Orderly) {tok' : Token} (htok : lang.token? m = some tok)
    (htok' : lang.token? m' = some tok') (hne : m ≠ m') : tok.keyword ≠ tok'.keyword := by
  intro hkeyword
  have hsame := hlang.token_injective tok (token_mem htok) tok' (token_mem htok') hkeyword
  have hm : tok.modifier = m := by simpa using List.find?_some htok
  have hm' : tok'.modifier = m' := by simpa using List.find?_some htok'
  exact hne (by rw [← hm, ← hm', hsame])

theorem filter_erase {p : Text → Bool} {k : Text} (hk : p k = false) (ws : List Text) :
    (ws.erase k).filter p = ws.filter p := by
  by_cases hmem : k ∈ ws
  · obtain ⟨before, after, rfl, hbefore⟩ := List.eq_append_cons_of_mem hmem
    rw [erase_split hbefore, List.filter_append, List.filter_append, List.filter_cons_of_neg]
    simp [hk]
  · rw [List.erase_of_not_mem hmem]

/-! ### Adding one -/

theorem has_withToken_self (htok : lang.token? m = some tok) :
    has lang (withToken lang m ws) m = true := by
  rw [has_of_token htok, withToken, htok, List.contains_iff_mem]
  simp

theorem has_withToken_of_ne (hlang : lang.Orderly) (hne : m' ≠ m) :
    has lang (withToken lang m ws) m' = has lang ws m' := by
  refine has_congr fun tok' htok' => ?_
  unfold withToken
  split
  · next tok htok =>
    have hkeyword := keyword_ne_of_ne hlang htok' htok hne
    simp [hkeyword]
  · rfl

theorem find?_withToken (hlang : lang.Orderly) :
    (withToken lang m ws).find? lang.isVisibility = ws.find? lang.isVisibility := by
  unfold withToken
  split
  · next tok htok =>
    have hkeyword := hlang.token_notVisibility tok (token_mem htok)
    rw [List.find?_append, List.find?_cons_of_neg (by simp [hkeyword])]
    simp
  · rfl

theorem Once.withToken (h : Once lang ws) (hlang : lang.Orderly) (hnot : has lang ws m = false) :
    Once lang (HeaderWords.withToken lang m ws) := by
  unfold HeaderWords.withToken
  split
  · next tok htok =>
    have hzero : ws.count tok.keyword = 0 := by
      rw [has_of_token htok, ← Bool.not_eq_true, List.contains_iff_mem] at hnot
      exact List.count_eq_zero_of_not_mem hnot
    constructor
    · intro tok' htok'
      rw [List.count_append]
      by_cases hkeyword : tok.keyword = tok'.keyword
      · rw [← hkeyword, hzero]
        simp
      · rw [List.count_cons_of_ne hkeyword, List.count_nil]
        exact h.token tok' htok'
    · have hvis := hlang.token_notVisibility tok (token_mem htok)
      rw [List.countP_append, List.countP_cons_of_neg (by simp [hvis]), List.countP_nil]
      exact h.visibility
  · exact h

/-! ### Taking one away -/

theorem has_without_self (h : Once lang ws) : has lang (without lang m ws) m = false := by
  cases htok : lang.token? m with
  | none => rw [has, htok, Option.any_none]
  | some tok =>
    have hone := h.token tok (token_mem htok)
    have hcount : (ws.erase tok.keyword).count tok.keyword = 0 := by
      rw [List.count_erase_self]
      omega
    simp only [without, htok]
    rw [has_of_token htok, ← Bool.not_eq_true, List.contains_iff_mem]
    exact List.count_eq_zero.1 hcount

theorem has_without_of_ne (hlang : lang.Orderly) (hne : m' ≠ m) :
    has lang (without lang m ws) m' = has lang ws m' := by
  refine has_congr fun tok' htok' => ?_
  unfold without
  split
  · next tok htok => exact List.mem_erase_of_ne (keyword_ne_of_ne hlang htok' htok hne)
  · rfl

theorem find?_without (hlang : lang.Orderly) :
    (without lang m ws).find? lang.isVisibility = ws.find? lang.isVisibility := by
  unfold without
  split
  · next tok htok =>
    rw [← List.head?_filter, ← List.head?_filter,
      filter_erase (hlang.token_notVisibility tok (token_mem htok))]
  · rfl

theorem Once.without (h : Once lang ws) : Once lang (HeaderWords.without lang m ws) := by
  unfold HeaderWords.without
  split
  · next tok htok =>
    have hsub : (ws.erase tok.keyword).Sublist ws := List.erase_sublist
    exact ⟨fun tok' htok' => Nat.le_trans (hsub.count_le _) (h.token tok' htok'),
      Nat.le_trans hsub.countP_le h.visibility⟩
  · exact h

/-! ## Visibilities -/

/-- The words around the visibility, if there is one. -/
theorem Once.visibility_cases (h : Once lang ws) :
    (∀ w ∈ ws, lang.isVisibility w = false) ∨
      ∃ before v after, ws = before ++ v :: after ∧ lang.isVisibility v = true ∧
        (∀ w ∈ before, lang.isVisibility w = false) ∧
        ∀ w ∈ after, lang.isVisibility w = false := by
  rcases HeaderWords.visibility_cases lang ws with hnone | ⟨before, v, after, rfl, hv, hbefore⟩
  · exact Or.inl hnone
  · refine Or.inr ⟨before, v, after, rfl, hv, hbefore, ?_⟩
    have hcount := h.visibility
    rw [List.countP_append, List.countP_cons_of_pos hv] at hcount
    have hzero : after.countP lang.isVisibility = 0 := by omega
    simpa using List.countP_eq_zero.1 hzero

/-- Changing the visibility: the words that are no visibilities stay in their order, with the new
    keyword among them. -/
theorem withVisibility_cases (h : Once lang ws) (keyword : Text) :
    ∃ before after, withVisibility lang keyword ws
        = before ++ ((if keyword.isEmpty then [] else [keyword]) ++ after) ∧
      before ++ after = ws.filter (!lang.isVisibility ·) := by
  rcases h.visibility_cases with hnone | ⟨before, v, after, rfl, hv, hbefore, hafter⟩
  · refine ⟨[], ws, withVisibility_of_noVisibility keyword hnone, ?_⟩
    rw [List.nil_append, List.filter_eq_self.2]
    simpa using hnone
  · refine ⟨before, after, withVisibility_split keyword hbefore hv, ?_⟩
    rw [List.filter_append, List.filter_cons_of_neg (by simp [hv]), List.filter_eq_self.2,
      List.filter_eq_self.2]
    · simpa using hafter
    · simpa using hbefore

section

variable {keyword : Text} (h : Once lang ws) (hlang : lang.Orderly)
  (hkeyword : keyword = [] ∨ lang.isVisibility keyword = true)

include h hlang hkeyword

theorem has_withVisibility : has lang (withVisibility lang keyword ws) m = has lang ws m := by
  obtain ⟨before, after, hwords, hothers⟩ := withVisibility_cases h keyword
  refine has_congr fun tok htok => ?_
  have htokvis := hlang.token_notVisibility tok (token_mem htok)
  have hnew : tok.keyword ∉ (if keyword.isEmpty then [] else [keyword]) := by
    split
    · simp
    · next hne =>
      rw [List.mem_singleton]
      intro hsame
      rcases hkeyword with rfl | hvis
      · simp at hne
      · rw [← hsame, htokvis] at hvis
        cases hvis
  have hiff : tok.keyword ∈ withVisibility lang keyword ws ↔ tok.keyword ∈ before ++ after := by
    rw [hwords]
    simp only [List.mem_append, hnew, false_or]
  rw [hiff, hothers, List.mem_filter]
  simp [htokvis]

omit hlang in
/-- The new keyword is the visibility. -/
theorem find?_withVisibility :
    (withVisibility lang keyword ws).find? lang.isVisibility
      = if keyword.isEmpty then none else some keyword := by
  obtain ⟨before, after, hwords, hothers⟩ := withVisibility_cases h keyword
  have hnone : (before ++ after).find? lang.isVisibility = none := by
    rw [hothers, List.find?_eq_none]
    intro w hw
    simpa using (List.mem_filter.1 hw).2
  rw [List.find?_append, Option.or_eq_none_iff] at hnone
  rw [hwords, List.find?_append, hnone.1, Option.none_or, List.find?_append, hnone.2,
    Option.or_none]
  split
  · rfl
  · next hne =>
    rcases hkeyword with rfl | hvis
    · simp at hne
    · rw [List.find?_cons_of_pos hvis]

theorem Once.withVisibility : Once lang (HeaderWords.withVisibility lang keyword ws) := by
  obtain ⟨before, after, hwords, hothers⟩ := withVisibility_cases h keyword
  have hperm : (HeaderWords.withVisibility lang keyword ws).Perm
      ((if keyword.isEmpty then [] else [keyword]) ++ ws.filter (!lang.isVisibility ·)) := by
    rw [hwords, ← hothers, ← List.append_assoc, ← List.append_assoc]
    exact List.perm_append_comm.append_right after
  refine Once.perm ⟨fun tok htok => ?_, ?_⟩ hperm
  · have htokvis := hlang.token_notVisibility tok htok
    have hcount : (ws.filter (!lang.isVisibility ·)).count tok.keyword ≤ 1 :=
      Nat.le_trans (List.filter_sublist.count_le tok.keyword) (h.token tok htok)
    rw [List.count_append]
    split
    · simpa using hcount
    · next hne =>
      have hsame : keyword ≠ tok.keyword := by
        rintro rfl
        rcases hkeyword with hnil | hvis
        · simp [hnil] at hne
        · rw [htokvis] at hvis
          cases hvis
      rw [List.count_cons_of_ne hsame, List.count_nil, Nat.zero_add]
      exact hcount
  · have hzero : (ws.filter (!lang.isVisibility ·)).countP lang.isVisibility = 0 := by
      rw [List.countP_eq_zero]
      intro w hw
      simpa using (List.mem_filter.1 hw).2
    rw [List.countP_append, hzero, Nat.add_zero]
    split
    · simp
    · exact List.countP_le_length

end

/-! ## Jobs -/

theorem afterJob_adds {job : Job} (h : job.adds? = some m) (kind : Kind) (vis : Text)
    (ws : List Text) :
    afterJob lang kind vis job ws
      = withToken lang m
          (if job = .addStatic ∧ kind = .method then without lang .final ws else ws) := by
  cases job <;> cases h <;> simp [afterJob]

theorem afterJob_removes {job : Job} (h : job.removes? = some m) (kind : Kind) (vis : Text)
    (ws : List Text) : afterJob lang kind vis job ws = without lang m ws := by
  cases job <;> cases h <;> rfl

section

variable {kind : Kind} {vis : Text} {job : Job} (h : Once lang ws) (hlang : lang.Orderly)
  (hjob : job.Offered lang (has lang ws) vis)

include h hlang hjob

/-- **After a job the modifiers are those it is for,** and otherwise the ones there were. -/
theorem has_afterJob (m : Modifier) :
    has lang (afterJob lang kind vis job ws) m = (job.effect? kind m).getD (has lang ws m) := by
  cases hjob with
  | access hvis =>
    rw [afterJob, has_withVisibility h hlang (visibilityKeyword_vis hvis kind)]
    simp [Job.effect?, Job.adds?, Job.removes?]
  | @adding _ added tok hadds hnot htok =>
    rw [afterJob_adds hadds]
    by_cases hm : m = added
    · subst hm
      rw [has_withToken_self htok]
      simp [Job.effect?, hadds]
    · have heffect : job.adds? ≠ some m := fun h => hm (Option.some.inj (h.symm.trans hadds))
      have hremoves : job.removes? ≠ some m := by rw [Job.removes?_of_adds? hadds]; simp
      rw [has_withToken_of_ne hlang hm]
      split
      · -- a method becomes static: it is the one job that has a say in a second modifier
        next hstatic =>
        obtain ⟨rfl, rfl⟩ := hstatic
        by_cases hfinal : m = .final
        · subst hfinal
          rw [has_without_self h]
          simp [Job.effect?, heffect]
        · rw [has_without_of_ne hlang hfinal]
          simp [Job.effect?, heffect, hremoves, hfinal]
      · next hother =>
        have hnone : ¬ (job.removes? = some m ∨
            (job = .addStatic ∧ kind = .method ∧ m = .final)) := by
          rintro (hrem | ⟨hst, hmethod, -⟩)
          · exact hremoves hrem
          · exact hother ⟨hst, hmethod⟩
        rw [Job.effect?, if_neg heffect, if_neg hnone, Option.getD_none]
  | @removing _ removed hremoves =>
    have hadds := Job.adds?_of_removes? hremoves
    rw [afterJob_removes hremoves]
    by_cases hm : m = removed
    · subst hm
      rw [has_without_self h]
      simp [Job.effect?, hadds, hremoves]
    · have hnone : ¬ (job.removes? = some m ∨
          (job = .addStatic ∧ kind = .method ∧ m = .final)) := by
        rintro (hrem | ⟨rfl, -, -⟩)
        · exact hm (Option.some.inj (hrem.symm.trans hremoves))
        · cases hremoves
      rw [has_without_of_ne hlang hm, Job.effect?, if_neg (by simp [hadds]), if_neg hnone,
        Option.getD_none]

theorem Once.afterJob : Once lang (HeaderWords.afterJob lang kind vis job ws) := by
  cases hjob with
  | access hvis => exact h.withVisibility hlang (visibilityKeyword_vis hvis kind)
  | @adding _ added tok hadds hnot htok =>
    rw [afterJob_adds hadds]
    split
    · next hstatic =>
      obtain ⟨rfl, -⟩ := hstatic
      cases hadds
      refine h.without.withToken hlang ?_
      rw [has_without_of_ne hlang (by decide)]
      exact hnot
    · exact h.withToken hlang hnot
  | removing hremoves =>
    rw [afterJob_removes hremoves]
    exact h.without

/-- **After a job the visibility is the one it is for,** or else the one there was. -/
theorem visibility_afterJob :
    visibility lang kind (afterJob lang kind vis job ws)
      = if job = .changeAccess then vis else visibility lang kind ws := by
  cases hjob with
  | access hvis =>
    rw [if_pos rfl, visibility, afterJob,
      find?_withVisibility h (visibilityKeyword_vis hvis kind)]
    rcases visibilityKeyword_cases lang kind vis with ⟨hnil, himplicit⟩ | hsame
    · rw [hnil, himplicit]
      rfl
    · have hne : vis.isEmpty = false := by
        have hmem := (Language.mem_allVisibilities.1 (Language.isVisibility_iff.1 hvis)).2
        simpa using hmem
      rw [hsame, hne]
      rfl
  | @adding _ added tok hadds hnot htok =>
    have hne : job ≠ .changeAccess := by
      rintro rfl
      cases hadds
    rw [if_neg hne, visibility, afterJob_adds hadds, find?_withToken hlang]
    split
    · rw [find?_without hlang, visibility]
    · rfl
  | removing hremoves =>
    have hne : job ≠ .changeAccess := by
      rintro rfl
      cases hremoves
    rw [if_neg hne, visibility, afterJob_removes hremoves, find?_without hlang, visibility]

end

/-! ## The other words -/

/-- Whether a word is neither the token of a modifier nor a visibility. -/
def isOther (lang : Language) (w : Text) : Bool :=
  !lang.isVisibility w && lang.tokens.all (·.keyword != w)

/-- The words that are neither tokens of modifiers nor visibilities. -/
def others (lang : Language) (ws : List Text) : List Text := ws.filter (isOther lang)

theorem isOther_visibility {v : Text} (hv : lang.isVisibility v = true) :
    isOther lang v = false := by
  rw [isOther, hv, Bool.not_true, Bool.false_and]

theorem isOther_token (htok : lang.token? m = some tok) : isOther lang tok.keyword = false := by
  have hall : lang.tokens.all (·.keyword != tok.keyword) = false := by
    rw [List.all_eq_false]
    exact ⟨tok, token_mem htok, by simp⟩
  rw [isOther, hall, Bool.and_false]

theorem others_append (ws vs : List Text) :
    others lang (ws ++ vs) = others lang ws ++ others lang vs := List.filter_append ws vs

theorem others_cons {w : Text} (hw : isOther lang w = false) (ws : List Text) :
    others lang (w :: ws) = others lang ws := List.filter_cons_of_neg (by simp [hw])

theorem others_erase {w : Text} (hw : isOther lang w = false) (ws : List Text) :
    others lang (ws.erase w) = others lang ws := filter_erase hw ws

theorem others_place {w : Text} (hw : isOther lang w = false) (placement : Placement)
    (ws : List Text) : others lang (place w placement ws) = others lang ws := by
  cases placement with
  | free => rfl
  | lineStart =>
    rw [place, moveFirst]
    split
    · rw [others_cons hw, others_erase hw]
    · rfl
  | beforeKeyword =>
    rw [place, moveLast]
    split
    · rw [others_append, others_erase hw, others_cons hw]
      exact List.append_nil _
    · rfl

theorem others_placed (m : Modifier) (ws : List Text) :
    others lang (placed lang m ws) = others lang ws := by
  unfold placed
  split
  · rfl
  · next tok htok => exact others_place (isOther_token htok) tok.placement ws

theorem others_ordered (ws : List Text) : others lang (ordered lang ws) = others lang ws := by
  rcases visibility_cases lang ws with hnone | ⟨before, v, after, rfl, hv, hbefore⟩
  · rw [ordered_of_noVisibility hnone]
  · rw [ordered, visibilityFirst?_split hbefore hv]
    generalize ((before ++ v :: after).takeWhile annotates).length = lead
    split
    · rfl
    · rw [Option.getD_some, others_append, others_cons (isOther_visibility hv), ← others_append,
        ← List.append_assoc, List.take_append_drop, others_append, others_append,
        others_cons (isOther_visibility hv)]

/-- The canonical layout keeps the other words in their order. -/
theorem others_normalized (ws : List Text) : others lang (normalized lang ws) = others lang ws := by
  rw [normalized, others_placed, others_placed]
  split
  · rw [others_ordered, others_placed]
  · exact others_placed _ ws

theorem others_without (m : Modifier) (ws : List Text) :
    others lang (without lang m ws) = others lang ws := by
  unfold without
  split
  · next tok htok => exact others_erase (isOther_token htok) ws
  · rfl

theorem others_withToken (m : Modifier) (ws : List Text) :
    others lang (withToken lang m ws) = others lang ws := by
  unfold withToken
  split
  · next tok htok =>
    rw [others_append, others_cons (isOther_token htok)]
    exact List.append_nil _
  · rfl

theorem others_withVisibility {keyword : Text}
    (hkeyword : keyword = [] ∨ lang.isVisibility keyword = true) (ws : List Text) :
    others lang (withVisibility lang keyword ws) = others lang ws := by
  have hnew : others lang (if keyword.isEmpty then [] else [keyword]) = [] := by
    rcases hkeyword with rfl | hvis
    · rfl
    · split
      · rfl
      · exact others_cons (isOther_visibility hvis) []
  rcases visibility_cases lang ws with hnone | ⟨before, v, after, rfl, hv, hbefore⟩
  · rw [withVisibility_of_noVisibility keyword hnone, others_append, hnew, List.nil_append]
  · rw [withVisibility_split keyword hbefore hv, others_append, others_append, hnew,
      List.nil_append, others_append, others_cons (isOther_visibility hv)]

/-- **A job keeps the other words in their order.** -/
theorem others_afterJob {has : Modifier → Bool} {vis : Text} {job : Job}
    (hjob : job.Offered lang has vis) (kind : Kind) (ws : List Text) :
    others lang (afterJob lang kind vis job ws) = others lang ws := by
  cases hjob with
  | access hvis => exact others_withVisibility (visibilityKeyword_vis hvis kind) ws
  | adding hadds =>
    rw [afterJob_adds hadds, others_withToken]
    split
    · exact others_without .final ws
    · rfl
  | removing hremoves =>
    rw [afterJob_removes hremoves]
    exact others_without _ ws

end HeaderWords

end ModifierToggle
