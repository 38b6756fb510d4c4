import Mathlib.Data.List.TakeWhile
import ModifierToggle.Proofs.HeaderSteps
import ModifierToggle.Proofs.Tables

set_option autoImplicit false

/-! # The canonical layout

What the canonical layout of a Haxe header looks like, and when restoring it again changes nothing.

The metadata `@:final` and `@:noCompletion` end up among the leading annotations, `inline` last,
and, if the settings ask for it, the visibility directly behind the leading annotations. That one
move does not undo what an earlier one did is seen from what each move does to the leading
annotations.

A second run finds everything in its place, except perhaps `inline`: of several, only the first one
is moved to the end, so that the next run finds another first one. The layout is stable exactly if
no other word is left behind an `inline` then (`normalized_eq_self_iff`). -/

namespace ModifierToggle

namespace HeaderWords

open LineEdit (annotates)

variable {lang : Language} {k x : Text} {before after ws : List Text}

/-! ## Leading annotations -/

theorem lead_split (hx : annotates x = false) (before after : List Text) :
    (before ++ x :: after).takeWhile annotates = before.takeWhile annotates := by
  induction before with
  | nil => simp [hx]
  | cons w before ih =>
    rw [List.cons_append, List.takeWhile_cons, List.takeWhile_cons, ih]

theorem lead_append_of_all_eq_false (h : before.all annotates = false) (after : List Text) :
    (before ++ after).takeWhile annotates = before.takeWhile annotates := by
  induction before with
  | nil => cases h
  | cons w before ih =>
    rw [List.cons_append, List.takeWhile_cons, List.takeWhile_cons]
    cases hw : annotates w with
    | false => rfl
    | true =>
      rw [List.all_cons, hw, Bool.true_and] at h
      rw [ih h]

/-- What stands behind does not take leading annotations away. -/
theorem mem_lead_append (h : x ∈ before.takeWhile annotates) (after : List Text) :
    x ∈ (before ++ after).takeWhile annotates := by
  cases hall : before.all annotates with
  | false => rwa [lead_append_of_all_eq_false hall]
  | true =>
    rw [List.takeWhile_append_of_pos (List.all_eq_true.1 hall)]
    exact List.mem_append_left _ ((List.takeWhile_sublist _).subset h)

/-- A word among the leading annotations, or absent, need not move to the front. -/
theorem moveFirst_eq_self (h : k ∈ ws → k ∈ ws.takeWhile annotates) : moveFirst k ws = ws := by
  by_cases hk : k ∈ ws
  · have hlead := h hk
    obtain ⟨before, after, rfl, hbefore⟩ := List.eq_append_cons_of_mem hk
    rw [moveFirst_split hbefore]
    cases hall : before.all annotates with
    | true => rfl
    | false =>
      rw [lead_append_of_all_eq_false hall] at hlead
      exact absurd ((List.takeWhile_sublist _).subset hlead) hbefore
  · exact moveFirst_of_notMem hk

theorem mem_lead_moveFirst_self (hk : annotates k = true) (h : k ∈ ws) :
    k ∈ (moveFirst k ws).takeWhile annotates := by
  obtain ⟨before, after, rfl, hbefore⟩ := List.eq_append_cons_of_mem h
  rw [moveFirst_split hbefore]
  cases hall : before.all annotates with
  | true =>
    simp only [if_true]
    rw [List.takeWhile_append_of_pos (List.all_eq_true.1 hall), List.takeWhile_cons, hk]
    simp
  | false => simp [hk]

theorem mem_lead_moveFirst (hk : annotates k = true) (h : x ∈ ws.takeWhile annotates) :
    x ∈ (moveFirst k ws).takeWhile annotates := by
  by_cases hmem : k ∈ ws
  · obtain ⟨before, after, rfl, hbefore⟩ := List.eq_append_cons_of_mem hmem
    rw [moveFirst_split hbefore]
    cases hall : before.all annotates with
    | true => exact h
    | false =>
      rw [lead_append_of_all_eq_false hall] at h
      simp only [Bool.false_eq_true, if_false]
      rw [List.takeWhile_cons, hk, lead_append_of_all_eq_false hall]
      exact List.mem_cons_of_mem _ h
  · rwa [moveFirst_of_notMem hmem]

/-- What stands before all `k` stays in front when one moves to the end. -/
theorem moveLast_append (hk : k ∉ before) (ws : List Text) :
    moveLast k (before ++ ws) = before ++ moveLast k ws := by
  unfold moveLast
  by_cases hmem : k ∈ ws
  · rw [if_pos (List.mem_append_right _ hmem), if_pos hmem, List.erase_append_right _ hk,
      List.append_assoc]
  · rw [if_neg (by simp [hk, hmem]), if_neg hmem]

theorem mem_lead_moveLast (hk : annotates k = false) (h : x ∈ ws.takeWhile annotates) :
    x ∈ (moveLast k ws).takeWhile annotates := by
  by_cases hmem : k ∈ ws
  · obtain ⟨before, after, rfl, hbefore⟩ := List.eq_append_cons_of_mem hmem
    rw [lead_split hk] at h
    rw [moveLast_split hbefore, List.append_assoc]
    exact mem_lead_append h _
  · rwa [moveLast_of_notMem hmem]

/-! ## The last word -/

theorem getLast?_moveLast (h : k ∈ ws) : (moveLast k ws).getLast? = some k := by
  rw [moveLast, if_pos h, List.getLast?_append]
  rfl

theorem getLast?_moveFirst (hne : k ≠ x) (h : ws.getLast? = some x) :
    (moveFirst k ws).getLast? = some x := by
  by_cases hmem : k ∈ ws
  · obtain ⟨before, after, rfl, hbefore⟩ := List.eq_append_cons_of_mem hmem
    rw [moveFirst_split hbefore]
    split
    · exact h
    · rw [List.getLast?_append, List.getLast?_cons] at h
      cases hafter : after.getLast? with
      | none =>
        simp only [hafter, Option.getD_none, Option.some_or, Option.some.injEq] at h
        exact absurd h hne
      | some y =>
        simp only [hafter, Option.getD_some, Option.some_or] at h
        rw [List.getLast?_cons, List.getLast?_append, hafter]
        exact h
  · rwa [moveFirst_of_notMem hmem]

/-! ## The visibility behind the leading annotations -/

section

variable (hvis : ∀ v, lang.isVisibility v = true → annotates v = false)

/-- The first visibility, if there is one, stands directly behind the leading annotations. -/
def VisibilityLeads (lang : Language) (ws : List Text) : Prop :=
  ws.any lang.isVisibility = true →
    (ws.dropWhile annotates).head?.any lang.isVisibility = true

theorem visibilityLeads_split {v : Text} (hbefore : ∀ w ∈ before, annotates w = true)
    (hv : lang.isVisibility v = true) (hann : annotates v = false) :
    VisibilityLeads lang (before ++ v :: after) := by
  intro _
  rw [List.dropWhile_append_of_pos hbefore, List.dropWhile_cons, hann]
  simpa using hv

theorem VisibilityLeads.exists_split (h : VisibilityLeads lang ws)
    (hany : ws.any lang.isVisibility = true) :
    ∃ before v after, ws = before ++ v :: after ∧ (∀ w ∈ before, annotates w = true) ∧
      lang.isVisibility v = true := by
  have hhead := h hany
  cases hdrop : ws.dropWhile annotates with
  | nil => rw [hdrop] at hhead; cases hhead
  | cons v after =>
    rw [hdrop] at hhead
    refine ⟨ws.takeWhile annotates, v, after, ?_, ?_, by simpa using hhead⟩
    · rw [← hdrop, List.takeWhile_append_dropWhile]
    · exact List.all_eq_true.1 List.all_takeWhile

include hvis

/-- Ordering a list that is split at its first visibility. -/
theorem ordered_split {v : Text} (hbefore : ∀ w ∈ before, lang.isVisibility w = false)
    (hv : lang.isVisibility v = true) :
    ordered lang (before ++ v :: after)
      = before.takeWhile annotates ++ v :: (before.dropWhile annotates ++ after) := by
  have hsplit : before.takeWhile annotates ++ before.dropWhile annotates = before :=
    List.takeWhile_append_dropWhile
  have htake : (before.takeWhile annotates ++ before.dropWhile annotates).take
      (before.takeWhile annotates).length = before.takeWhile annotates := List.take_left
  have hdrop : (before.takeWhile annotates ++ before.dropWhile annotates).drop
      (before.takeWhile annotates).length = before.dropWhile annotates := List.drop_left
  rw [hsplit] at htake hdrop
  rw [ordered, visibilityFirst?_split hbefore hv, lead_split (hvis v hv), htake, hdrop]
  split
  · -- only annotations stand before the visibility: it stays
    next hlength =>
    have hnil : before.dropWhile annotates = [] := by
      have hsum := congrArg List.length hsplit
      rw [List.length_append] at hsum
      exact List.length_eq_zero_iff.1 (by omega)
    rw [hnil, List.append_nil] at hsplit
    rw [Option.getD_none, hnil, List.nil_append, hsplit]
  · rfl

theorem lead_ordered (ws : List Text) :
    (ordered lang ws).takeWhile annotates = ws.takeWhile annotates := by
  rcases visibility_cases lang ws with hnone | ⟨before, v, after, rfl, hv, hbefore⟩
  · rw [ordered_of_noVisibility hnone]
  · rw [ordered_split hvis hbefore hv, lead_split (hvis v hv), lead_split (hvis v hv),
      List.takeWhile_idem]

theorem visibilityLeads_ordered (ws : List Text) : VisibilityLeads lang (ordered lang ws) := by
  rcases visibility_cases lang ws with hnone | ⟨before, v, after, rfl, hv, hbefore⟩
  · intro hany
    rw [ordered_of_noVisibility hnone] at hany
    obtain ⟨w, hw, hwvis⟩ := List.any_eq_true.1 hany
    rw [hnone w hw] at hwvis
    cases hwvis
  · rw [ordered_split hvis hbefore hv]
    exact visibilityLeads_split (List.all_eq_true.1 List.all_takeWhile) hv (hvis v hv)

/-- A visibility in its place stays there. -/
theorem ordered_eq_self (h : VisibilityLeads lang ws) : ordered lang ws = ws := by
  cases hany : ws.any lang.isVisibility with
  | false => exact ordered_of_noVisibility (by simpa using hany)
  | true =>
    obtain ⟨before, v, after, rfl, hbefore, hv⟩ := h.exists_split hany
    have hnone : ∀ w ∈ before, lang.isVisibility w = false := by
      intro w hw
      cases hwvis : lang.isVisibility w with
      | false => rfl
      | true => exact absurd (hbefore w hw) (by simp [hvis w hwvis])
    have htake : before.takeWhile annotates = before := List.takeWhile_eq_self_iff.2 hbefore
    have hdrop : before.dropWhile annotates = [] := List.dropWhile_eq_nil_iff.2 hbefore
    rw [ordered_split hvis hnone hv, htake, hdrop, List.nil_append]

/-- Moving a word that is no visibility to the end leaves the visibility where it is. -/
theorem VisibilityLeads.moveLast (h : VisibilityLeads lang ws) (hk : annotates k = false)
    (hkvis : lang.isVisibility k = false) :
    VisibilityLeads lang (HeaderWords.moveLast k ws) := by
  intro hany
  rw [(moveLast_perm k ws).any_eq] at hany
  obtain ⟨before, v, after, rfl, hbefore, hv⟩ := h.exists_split hany
  have hfront : k ∉ before ++ [v] := by
    intro hmem
    rcases List.mem_append.1 hmem with hmem | hmem
    · exact absurd (hbefore k hmem) (by simp [hk])
    · exact absurd hv (by simp [← List.mem_singleton.1 hmem, hkvis])
  rw [List.append_cons, moveLast_append hfront, List.append_assoc, List.singleton_append]
  refine visibilityLeads_split hbefore hv (hvis v hv) ?_
  simp [hv]

/-- Moving an annotation to the front leaves the visibility behind the leading annotations. -/
theorem VisibilityLeads.moveFirst (h : VisibilityLeads lang ws) (hk : annotates k = true) :
    VisibilityLeads lang (HeaderWords.moveFirst k ws) := by
  intro hany
  rw [(moveFirst_perm k ws).any_eq] at hany
  obtain ⟨before, v, after, rfl, hbefore, hv⟩ := h.exists_split hany
  have hkv : k ≠ v := by
    rintro rfl
    exact absurd hk (by simp [hvis k hv])
  by_cases hlead : k ∈ before
  · rw [moveFirst_eq_self fun _ => ?_]
    · exact h hany
    · rw [List.takeWhile_append_of_pos hbefore]
      exact List.mem_append_left _ hlead
  · by_cases hmem : k ∈ after
    · obtain ⟨front, back, rfl, hfront⟩ := List.eq_append_cons_of_mem hmem
      have hsplit : before ++ v :: (front ++ k :: back) = (before ++ v :: front) ++ k :: back := by
        simp
      have hnotMem : k ∉ before ++ v :: front := by simp [hlead, hkv, hfront]
      have hall : (before ++ v :: front).all annotates = false := by simp [hvis v hv]
      rw [hsplit, moveFirst_split hnotMem, hall]
      have hlist : k :: (before ++ v :: front ++ back) = (k :: before) ++ v :: (front ++ back) := by
        simp
      simp only [Bool.false_eq_true, if_false]
      rw [hlist]
      refine visibilityLeads_split ?_ hv (hvis v hv) (by simp [hv])
      simpa [hk] using hbefore
    · rw [moveFirst_of_notMem (by simp [hlead, hkv, hmem])]
      exact h hany

end

/-! ## Words behind another one -/

/-- No other word stands behind `k`. -/
def Closing (k : Text) (ws : List Text) : Prop := ws.Pairwise fun a b => a = k → b = k

instance (k : Text) (ws : List Text) : Decidable (Closing k ws) :=
  inferInstanceAs (Decidable (List.Pairwise _ _))

theorem closing_append_iff (hk : k ∉ before) : Closing k (before ++ ws) ↔ Closing k ws := by
  unfold Closing
  rw [List.pairwise_append]
  constructor
  · exact fun h => h.2.1
  · have hne : ∀ w ∈ before, w ≠ k := fun w hw h => hk (h ▸ hw)
    refine fun h => ⟨?_, h, fun a ha b _ hak => absurd hak (hne a ha)⟩
    exact List.pairwise_of_forall_mem_list fun a ha b _ hak => absurd hak (hne a ha)

theorem closing_cons_iff (hx : x ≠ k) : Closing k (x :: ws) ↔ Closing k ws :=
  @closing_append_iff k [x] ws (by simpa using Ne.symm hx)

theorem closing_concat_iff : Closing k (ws ++ [k]) ↔ Closing k ws := by
  unfold Closing
  rw [List.pairwise_append]
  constructor
  · exact fun h => h.1
  · refine fun h => ⟨h, List.pairwise_singleton _ _, fun a _ b hb _ => List.mem_singleton.1 hb⟩

theorem concat_eq_cons_iff : ws ++ [k] = k :: ws ↔ ∀ w ∈ ws, w = k := by
  induction ws with
  | nil => simp
  | cons w ws ih =>
    rw [List.cons_append, List.cons.injEq, List.forall_mem_cons]
    constructor
    · rintro ⟨rfl, h⟩
      exact ⟨rfl, ih.1 h⟩
    · rintro ⟨rfl, h⟩
      exact ⟨rfl, ih.2 h⟩

/-- Moving the first `k` to the end changes nothing exactly if nothing else is behind it. -/
theorem moveLast_eq_self_iff : moveLast k ws = ws ↔ Closing k ws := by
  by_cases hmem : k ∈ ws
  · obtain ⟨before, after, rfl, hbefore⟩ := List.eq_append_cons_of_mem hmem
    rw [moveLast_split hbefore, closing_append_iff hbefore, List.append_assoc,
      List.append_cancel_left_eq, concat_eq_cons_iff, Closing, List.pairwise_cons]
    constructor
    · refine fun h => ⟨fun w hw _ => h w hw, ?_⟩
      exact List.pairwise_of_forall_mem_list fun _ _ b hb _ => h b hb
    · exact fun h w hw => h.1 w hw rfl
  · rw [moveLast_of_notMem hmem]
    refine ⟨fun _ => ?_, fun _ => rfl⟩
    exact List.pairwise_of_forall_mem_list fun a ha _ _ hak => absurd (hak ▸ ha) hmem

theorem closing_moveLast_iff : Closing k (moveLast k ws) ↔ Closing k (ws.erase k) := by
  unfold moveLast
  split
  · exact closing_concat_iff
  · next hmem => rw [List.erase_of_not_mem hmem]

/-! ## Taking words out -/

theorem erase_lead (h : k ∈ before ++ after → k ∈ before) :
    (before ++ after).erase k = before.erase k ++ after := by
  by_cases hk : k ∈ before
  · exact List.erase_append_left _ hk
  · rw [List.erase_of_not_mem fun hmem => hk (h hmem), List.erase_of_not_mem hk]

theorem erase_moveFirst (k : Text) (ws : List Text) : (moveFirst k ws).erase k = ws.erase k := by
  unfold moveFirst
  split
  · rw [List.erase_cons_head]
  · rfl

theorem eraseP_erase_comm {q : Text → Bool} (hq : q k = false) (ws : List Text) :
    (ws.erase k).eraseP q = (ws.eraseP q).erase k := by
  rw [List.erase_eq_eraseP, List.erase_eq_eraseP, List.eraseP_comm]
  intro a _
  by_cases hak : k = a
  · exact Or.inr (by simp [← hak, hq])
  · exact Or.inl (by simpa using hak)

theorem eraseP_moveLast {q : Text → Bool} (hq : q k = false) (ws : List Text) :
    (moveLast k ws).eraseP q = moveLast k (ws.eraseP q) := by
  unfold moveLast
  by_cases hmem : k ∈ ws
  · have hmem' : k ∈ ws.eraseP q := (List.mem_eraseP_of_neg (by simp [hq])).2 hmem
    rw [if_pos hmem, if_pos hmem', List.eraseP_append, ← eraseP_erase_comm hq]
    split
    · rfl
    · next hany =>
      rw [List.eraseP_of_forall_not, List.eraseP_of_forall_not]
      · simpa using hany
      · simp [hq]
  · have hmem' : k ∉ ws.eraseP q := fun h => hmem (List.mem_of_mem_eraseP h)
    rw [if_neg hmem, if_neg hmem']

theorem erase_moveLast (hne : x ≠ k) (ws : List Text) :
    (moveLast k ws).erase x = moveLast k (ws.erase x) := by
  rw [List.erase_eq_eraseP, List.erase_eq_eraseP]
  exact eraseP_moveLast (by simpa using hne) ws

theorem eraseP_ordered (hvis : ∀ v, lang.isVisibility v = true → annotates v = false)
    (ws : List Text) :
    (ordered lang ws).eraseP lang.isVisibility = ws.eraseP lang.isVisibility := by
  rcases visibility_cases lang ws with hnone | ⟨before, v, after, rfl, hv, hbefore⟩
  · rw [ordered_of_noVisibility hnone]
  · have hsplit : before.takeWhile annotates ++ before.dropWhile annotates = before :=
      List.takeWhile_append_dropWhile
    have hnone : ∀ w ∈ before, ¬ lang.isVisibility w = true := by simpa using hbefore
    rw [ordered_split hvis hbefore hv, List.eraseP_append_right _ hnone, List.eraseP_append_right,
      List.eraseP_cons_of_pos hv, List.eraseP_cons_of_pos hv, ← List.append_assoc, hsplit]
    exact fun w hw => hnone w ((List.takeWhile_sublist _).subset hw)

/-! ## The layout of Haxe headers -/

namespace Haxe

def final : Text := utf8 "@:final"
def inlined : Text := utf8 "inline"
def noCompletion : Text := utf8 "@:noCompletion"

variable (opts : LanguageOptions) (ws : List Text)

theorem normalized_eq :
    normalized (Language.haxe opts) ws
      = moveFirst noCompletion (moveLast inlined
          (if opts.startWithModifiers then ordered (Language.haxe opts) (moveFirst final ws)
            else moveFirst final ws)) := rfl

/-- The canonical layout: the first `@:final` and the first `@:noCompletion` are among the leading
    annotations, `inline` is last, and the first visibility, if it has to lead, stands directly
    behind the leading annotations. -/
structure Canonical : Prop where
  final_leads : final ∈ ws → final ∈ ws.takeWhile annotates
  noCompletion_leads : noCompletion ∈ ws → noCompletion ∈ ws.takeWhile annotates
  inlined_last : inlined ∈ ws → ws.getLast? = some inlined
  visibility_leads : opts.startWithModifiers = true → VisibilityLeads (Language.haxe opts) ws

theorem annotates_of_isVisibility (v : Text) (hv : (Language.haxe opts).isVisibility v = true) :
    annotates v = false :=
  Text.not_annotates_of_isName
    ((Language.haxe_orderly opts).visibility_name v (Language.isVisibility_iff.1 hv))

theorem annotation_notVisibility (hk : annotates k = true) :
    (Language.haxe opts).isVisibility k = false := by
  cases hvis : (Language.haxe opts).isVisibility k with
  | false => rfl
  | true => rw [annotates_of_isVisibility opts k hvis] at hk; cases hk

theorem inlined_notVisibility : (Language.haxe opts).isVisibility inlined = false := by
  show (Language.haxe {}).isVisibility inlined = false
  decide

/-- **Every header ends up in the canonical layout.** -/
theorem canonical_normalized : Canonical opts (normalized (Language.haxe opts) ws) := by
  have hvis := annotates_of_isVisibility opts
  -- the words after the visibility is in order
  obtain ⟨us, hus⟩ : ∃ us, us = (if opts.startWithModifiers then
      ordered (Language.haxe opts) (moveFirst final ws) else moveFirst final ws) := ⟨_, rfl⟩
  have hperm : us.Perm ws := by
    rw [hus]
    split
    · exact (ordered_perm _ _).trans (moveFirst_perm _ _)
    · exact moveFirst_perm _ _
  have hfinal : final ∈ ws → final ∈ us.takeWhile annotates := by
    intro hmem
    rw [hus]
    split
    · rw [lead_ordered hvis]
      exact mem_lead_moveFirst_self (by decide) hmem
    · exact mem_lead_moveFirst_self (by decide) hmem
  have hleads : opts.startWithModifiers = true → VisibilityLeads (Language.haxe opts) us := by
    intro hswm
    rw [hus, if_pos hswm]
    exact visibilityLeads_ordered hvis _
  rw [normalized_eq, ← hus]
  have hperm' : (moveFirst noCompletion (moveLast inlined us)).Perm ws :=
    ((moveFirst_perm _ _).trans (moveLast_perm _ _)).trans hperm
  constructor
  · intro hmem
    refine mem_lead_moveFirst (by decide) (mem_lead_moveLast (by decide) (hfinal ?_))
    exact hperm'.mem_iff.1 hmem
  · intro hmem
    refine mem_lead_moveFirst_self (by decide) ((moveLast_perm _ us).mem_iff.2 ?_)
    exact hperm.mem_iff.2 (hperm'.mem_iff.1 hmem)
  · intro hmem
    refine getLast?_moveFirst (by decide) (getLast?_moveLast ?_)
    exact hperm.mem_iff.2 (hperm'.mem_iff.1 hmem)
  · intro hswm
    exact ((hleads hswm).moveLast hvis (by decide) (inlined_notVisibility opts)).moveFirst hvis
      (by decide)

/-- Restoring the canonical layout again has an effect on `inline` only. -/
theorem normalized_normalized :
    normalized (Language.haxe opts) (normalized (Language.haxe opts) ws)
      = moveLast inlined (normalized (Language.haxe opts) ws) := by
  have hcanonical := canonical_normalized opts ws
  generalize normalized (Language.haxe opts) ws = vs at hcanonical
  have hordered : (if opts.startWithModifiers then
      ordered (Language.haxe opts) (moveFirst final vs) else moveFirst final vs) = vs := by
    rw [moveFirst_eq_self hcanonical.final_leads]
    split
    · next hswm =>
      exact ordered_eq_self (annotates_of_isVisibility opts) (hcanonical.visibility_leads hswm)
    · rfl
  rw [normalized_eq, hordered]
  refine moveFirst_eq_self fun hmem => mem_lead_moveLast (by decide) ?_
  exact hcanonical.noCompletion_leads ((moveLast_perm _ vs).mem_iff.1 hmem)

/-! ### When the layout is stable -/

/-- The words other than those that lead: the first `@:final`, the first `@:noCompletion` and, where
    it has to lead, the first visibility. -/
def remaining : List Text :=
  let vs := (ws.erase final).erase noCompletion
  if opts.startWithModifiers then vs.eraseP (Language.haxe opts).isVisibility else vs

/-- Of the remaining words, only `inline` moves. -/
theorem remaining_normalized :
    remaining opts (normalized (Language.haxe opts) ws) = moveLast inlined (remaining opts ws) := by
  obtain ⟨us, hus⟩ : ∃ us, us = (if opts.startWithModifiers then
      ordered (Language.haxe opts) (moveFirst final ws) else moveFirst final ws) := ⟨_, rfl⟩
  have hfirst : remaining opts us = remaining opts ws := by
    cases hswm : opts.startWithModifiers with
    | false =>
      simp only [remaining, hswm, Bool.false_eq_true, if_false] at hus ⊢
      rw [hus, erase_moveFirst]
    | true =>
      simp only [remaining, hswm, if_true] at hus ⊢
      -- taking words of different kinds out can be done in any order
      have hcomm : ∀ vs : List Text, ((vs.erase final).erase noCompletion).eraseP
          (Language.haxe opts).isVisibility
          = ((vs.eraseP (Language.haxe opts).isVisibility).erase final).erase noCompletion := by
        intro vs
        rw [eraseP_erase_comm (annotation_notVisibility opts (by decide)),
          eraseP_erase_comm (annotation_notVisibility opts (by decide))]
      rw [hcomm, hus, eraseP_ordered (annotates_of_isVisibility opts), ← hcomm, erase_moveFirst]
  have hlast : remaining opts (moveFirst noCompletion (moveLast inlined us))
      = moveLast inlined (remaining opts us) := by
    have herase : ((moveFirst noCompletion (moveLast inlined us)).erase final).erase noCompletion
        = moveLast inlined ((us.erase final).erase noCompletion) := by
      rw [List.erase_comm, erase_moveFirst, List.erase_comm, erase_moveLast (by decide),
        erase_moveLast (by decide)]
    unfold remaining
    rw [herase]
    split
    · exact eraseP_moveLast (inlined_notVisibility opts) _
    · rfl
  rw [normalized_eq, ← hus, hlast, hfirst]

/-- In the canonical layout, words that lead have no `inline` before them. -/
theorem Canonical.closing_remaining_iff {vs : List Text} (h : Canonical opts vs) :
    Closing inlined (remaining opts vs) ↔ Closing inlined vs := by
  have hsplit : vs.takeWhile annotates ++ vs.dropWhile annotates = vs :=
    List.takeWhile_append_dropWhile
  have hlead : ∀ w ∈ vs.takeWhile annotates, annotates w = true :=
    List.all_eq_true.1 List.all_takeWhile
  have hfinal := h.final_leads
  have hnoCompletion := h.noCompletion_leads
  have hleads := h.visibility_leads
  unfold VisibilityLeads at hleads
  generalize vs.takeWhile annotates = lead at *
  generalize vs.dropWhile annotates = others at *
  subst hsplit
  have herase : ((lead ++ others).erase final).erase noCompletion
      = (lead.erase final).erase noCompletion ++ others := by
    rw [erase_lead hfinal, erase_lead fun hmem => ?_]
    rcases List.mem_append.1 hmem with hmem | hmem
    · exact hmem
    · exact (List.mem_erase_of_ne (by decide)).2 (hnoCompletion (List.mem_append_right _ hmem))
  have hsubset : ∀ w ∈ (lead.erase final).erase noCompletion, w ∈ lead := fun w hw =>
    List.mem_of_mem_erase (List.mem_of_mem_erase hw)
  have hinlined : inlined ∉ lead := fun hmem => absurd (hlead _ hmem) (by decide)
  have hinlined' : inlined ∉ (lead.erase final).erase noCompletion := fun hmem =>
    hinlined (hsubset _ hmem)
  unfold remaining
  rw [herase, closing_append_iff hinlined]
  split
  · next hswm =>
    have hnone : ∀ w ∈ (lead.erase final).erase noCompletion,
        ¬ (Language.haxe opts).isVisibility w = true := fun w hw => by
      simp [annotation_notVisibility opts (hlead w (hsubset w hw))]
    rw [List.eraseP_append_right _ hnone, closing_append_iff hinlined']
    cases others with
    | nil => rfl
    | cons v others =>
      cases hv : (Language.haxe opts).isVisibility v with
      | true =>
        have hne : v ≠ inlined := by
          rintro rfl
          rw [inlined_notVisibility opts] at hv
          cases hv
        rw [List.eraseP_cons_of_pos hv, closing_cons_iff hne]
      | false =>
        -- the visibility would lead the words behind the annotations: there is none
        have hany : ((lead ++ v :: others).any (Language.haxe opts).isVisibility) = false := by
          cases hany : (lead ++ v :: others).any (Language.haxe opts).isVisibility with
          | false => rfl
          | true =>
            have hhead := hleads hswm hany
            rw [List.head?_cons, Option.any_some, hv] at hhead
            cases hhead
        rw [List.eraseP_of_forall_not]
        intro w hw
        rw [List.any_eq_false] at hany
        exact hany w (List.mem_append_right _ hw)
  · rw [closing_append_iff hinlined']

/-- **The canonical layout is stable** exactly if, the first `inline` and the words that lead put
    aside, no word but `inline` stands behind an `inline`. -/
theorem normalized_eq_self_iff :
    normalized (Language.haxe opts) (normalized (Language.haxe opts) ws)
        = normalized (Language.haxe opts) ws
      ↔ Closing inlined ((remaining opts ws).erase inlined) := by
  rw [normalized_normalized, moveLast_eq_self_iff,
    ← (canonical_normalized opts ws).closing_remaining_iff, remaining_normalized,
    closing_moveLast_iff]

end Haxe

end HeaderWords

/-! ## Restoring the layout of a line -/

namespace Editor

open HeaderWords

/-- **Haxe headers reach the canonical layout.** Restoring it on the one line of a header gives a
    line with the same indentation and the same bytes from the keyword on, and the same words in the
    canonical layout. Doing so again changes nothing exactly if no word but `inline` is left behind
    an `inline`, the first `inline` and the words that lead put aside. -/
theorem normalize_haxe_canonical (opts : LanguageOptions) (scope : Option ToggleScope)
    (f : HeaderFrame (Language.haxe opts)) {ws : List Text}
    (hws : ∀ w ∈ ws, (Language.haxe opts).IsModifierWord w) {w : Work} {n : Nat}
    (hw : w.writesLeft = none) (hline : w.buffer.text.lines[n]? = some (f.line ws)) :
    let first := normalize ⟨Language.haxe opts, scope⟩ ⟨n, n⟩ w
    let second := normalize ⟨Language.haxe opts, scope⟩ ⟨n, n⟩ first.work
    first.error = none ∧
    (∃ vs, first.work.buffer.text = w.buffer.withLine n (f.line vs) ∧ vs.Perm ws ∧
      Haxe.Canonical opts vs) ∧
    second.error = none ∧
    (second.work.buffer = first.work.buffer
      ↔ Closing Haxe.inlined ((Haxe.remaining opts ws).erase Haxe.inlined)) := by
  intro first second
  obtain ⟨s, hfill, hlength, hhost⟩ := f.exists_site hline
  subst hlength
  have hlang := (Language.haxe_orderly opts).toRegular
  have hspan := s.ends_single
  have hcanonical := Haxe.canonical_normalized opts ws
  have hvs := isModifierWord_of_perm (normalized_perm (Language.haxe opts) ws) hws
  have hrewrites : ∀ us : List Text, (∀ w ∈ us, (Language.haxe opts).IsModifierWord w) →
      (normalize ⟨Language.haxe opts, scope⟩ ⟨s.above.length, s.above.length⟩).Rewrites s
        (f.line us) (f.line (normalized (Language.haxe opts) us)) :=
    fun us hus => normalize_rewrites hlang hhost hspan hus
  obtain ⟨herror, hw', ht'⟩ := hrewrites ws hws w hw hfill.symm
  obtain ⟨herror', -, ht''⟩ := hrewrites _ hvs first.work hw' ht'
  refine ⟨herror, ⟨_, ?_, normalized_perm (Language.haxe opts) ws, hcanonical⟩, herror', ?_⟩
  · rw [(hhost ws hws).withLine hfill.symm]
    exact ht'
  · rw [← Haxe.normalized_eq_self_iff]
    constructor
    · -- a second run that changes nothing leaves the line, and so the words
      intro hsame
      have htext : s.fill (f.line (normalized (Language.haxe opts)
          (normalized (Language.haxe opts) ws)))
          = s.fill (f.line (normalized (Language.haxe opts) ws)) := by
        rw [← ht'', ← ht']
        exact congrArg Buffer.text hsame
      have hlines := List.append_cancel_left (List.append_cancel_right htext)
      have hvs' := isModifierWord_of_perm (normalized_perm (Language.haxe opts) _) hvs
      exact f.line_injective (fun v hv => (hvs' v hv).1) (fun v hv => (hvs v hv).1) hlines
    · intro hstable
      have hinlined := hstable
      rw [Haxe.normalized_normalized] at hinlined
      refine (normalize_keeps hlang hhost hspan hvs ?_ ?_ hinlined ?_).2 _ hw' ht'
      · exact moveFirst_eq_self hcanonical.final_leads
      · exact fun hswm => ordered_eq_self (Haxe.annotates_of_isVisibility opts)
          (hcanonical.visibility_leads hswm)
      · exact moveFirst_eq_self hcanonical.noCompletion_leads

/-- Settings under which the visibility has to lead. -/
def visibilityLeading : LanguageOptions := { startWithModifiers := true }

/-- The frame of a method header in a Haxe class. -/
def methodFrame : HeaderFrame (Language.haxe visibilityLeading) where
  indentation := [Byte.tab]
  keyword := utf8 "function"
  separator := Byte.space
  tail := utf8 "f() {}"
  isBlank := List.forall_mem_singleton.2 rfl
  keyword_mem := by decide
  isSeparator := by decide

/-- Words with `inline` twice, where all other words lead. -/
def methodWords : List Text := [utf8 "inline", utf8 "private", utf8 "@:final", utf8 "inline"]

/-- A class with a method that has these words. -/
def methodWork : Work :=
  { buffer := Buffer.ofText
      (utf8 "class A \x7b\n" ++ methodFrame.line methodWords ++ utf8 "\n\x7d") }

/-- A header with `inline` twice that is stable all the same. -/
theorem normalize_haxe_canonical_method :
    (∀ v ∈ methodWords, (Language.haxe visibilityLeading).IsModifierWord v) ∧
    methodWork.writesLeft = none ∧
    methodWork.buffer.text.lines[1]? = some (methodFrame.line methodWords) ∧
    (∃ vs, (normalize ⟨Language.haxe visibilityLeading, none⟩ ⟨(1 : Nat), (1 : Nat)⟩
        methodWork).work.buffer.text = methodWork.buffer.withLine 1 (methodFrame.line vs) ∧
      vs.Perm methodWords ∧ Haxe.Canonical visibilityLeading vs) ∧
    (normalize ⟨Language.haxe visibilityLeading, none⟩ ⟨(1 : Nat), (1 : Nat)⟩
      (normalize ⟨Language.haxe visibilityLeading, none⟩ ⟨(1 : Nat), (1 : Nat)⟩
        methodWork).work).work.buffer
      = (normalize ⟨Language.haxe visibilityLeading, none⟩ ⟨(1 : Nat), (1 : Nat)⟩
        methodWork).work.buffer := by
  have hws : ∀ v ∈ methodWords, (Language.haxe visibilityLeading).IsModifierWord v := by decide
  have hline : methodWork.buffer.text.lines[1]? = some (methodFrame.line methodWords) := by decide
  have hclosing : Closing Haxe.inlined
      ((Haxe.remaining visibilityLeading methodWords).erase Haxe.inlined) := by decide
  obtain ⟨-, hcanonical, -, hstable⟩ :=
    normalize_haxe_canonical visibilityLeading none methodFrame hws rfl hline
  exact ⟨hws, rfl, hline, hcanonical, hstable.2 hclosing⟩

/-- With `inline` twice and another word behind, a second run moves the other `inline` too. -/
theorem normalize_haxe_unstable :
    let ed : Editor := ⟨Language.haxe {}, none⟩
    let first := ed.normalize ⟨0, 0⟩
      { buffer := Buffer.ofText (utf8 "inline inline static function f() {}") }
    first.work.buffer.text = utf8 "inline static inline function f() {}" ∧
    (ed.normalize ⟨0, 0⟩ first.work).work.buffer.text
      = utf8 "static inline inline function f() {}" := by
  decide

end Editor

end ModifierToggle
