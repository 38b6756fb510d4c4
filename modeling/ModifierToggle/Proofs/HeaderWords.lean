import Mathlib.Data.List.Basic
import Mathlib.Tactic.Common
import ModifierToggle.Editor.Basic

set_option autoImplicit false

/-! # Editing a list of words

What the edits of a header line do, said about the list of words before its keyword: a word moves to
the front or to the end, the visibility moves behind the leading annotations or gives way to another
one, a word is added or removed. Each of these is described by what it makes of a list that is split
at the word in question, and moving words never loses one. -/

namespace ModifierToggle.HeaderWords

open LineEdit (visibilityFirst? annotates)

variable {lang : Language} {k v : Text} {before after ws : List Text}

/-! ## Moving a word -/

/-- Move the first `k` to the front, unless only annotations stand before it. -/
def moveFirst (k : Text) (ws : List Text) : List Text :=
  if k ∈ ws ∧ (ws.takeWhile (· != k)).all annotates = false then k :: ws.erase k else ws

/-- Move the first `k` to the end. -/
def moveLast (k : Text) (ws : List Text) : List Text :=
  if k ∈ ws then ws.erase k ++ [k] else ws

theorem erase_split (hk : k ∉ before) : (before ++ k :: after).erase k = before ++ after := by
  rw [List.erase_append_right _ hk, List.erase_cons_head]

theorem moveFirst_of_notMem (hk : k ∉ ws) : moveFirst k ws = ws :=
  if_neg fun h => hk h.1

theorem moveFirst_split (hk : k ∉ before) :
    moveFirst k (before ++ k :: after)
      = if before.all annotates then before ++ k :: after else k :: (before ++ after) := by
  have hbefore : (before ++ k :: after).takeWhile (· != k) = before := by
    have hne : ∀ w ∈ before, (w != k) = true := by
      intro w hw
      rw [bne_iff_ne]
      exact fun h => hk (h ▸ hw)
    rw [List.takeWhile_append_of_pos hne]
    simp
  rw [moveFirst, hbefore, erase_split hk]
  cases before.all annotates <;> simp

theorem moveLast_of_notMem (hk : k ∉ ws) : moveLast k ws = ws := if_neg hk

theorem moveLast_split (hk : k ∉ before) :
    moveLast k (before ++ k :: after) = before ++ after ++ [k] := by
  rw [moveLast, if_pos (by simp), erase_split hk]

theorem moveFirst_perm (k : Text) (ws : List Text) : (moveFirst k ws).Perm ws := by
  unfold moveFirst
  split
  · next h => exact (List.perm_cons_erase h.1).symm
  · exact List.Perm.refl _

theorem moveLast_perm (k : Text) (ws : List Text) : (moveLast k ws).Perm ws := by
  unfold moveLast
  split
  · next h => exact (List.perm_append_singleton k _).trans (List.perm_cons_erase h).symm
  · exact List.Perm.refl _

/-! ## Ordering the words -/

/-- The words with the first visibility behind the leading annotations. -/
def ordered (lang : Language) (ws : List Text) : List Text := (visibilityFirst? lang ws).getD ws

theorem visibilityFirst?_eq_none (hws : ∀ w ∈ ws, lang.isVisibility w = false) :
    visibilityFirst? lang ws = none := by
  rw [visibilityFirst?, List.findIdx?_eq_none_iff.2 hws]

theorem findIdx?_split {p : Text → Bool} (hbefore : ∀ w ∈ before, p w = false) (hv : p v = true) :
    (before ++ v :: after).findIdx? p = some before.length := by
  rw [List.findIdx?_append, List.findIdx?_eq_none_iff.2 hbefore, List.findIdx?_cons, hv]
  simp

/-- Moving the visibility in a list that is split at it. -/
theorem visibilityFirst?_split (hbefore : ∀ w ∈ before, lang.isVisibility w = false)
    (hv : lang.isVisibility v = true) :
    visibilityFirst? lang (before ++ v :: after)
      = if before.length ≤ ((before ++ v :: after).takeWhile annotates).length then none
        else some (before.take ((before ++ v :: after).takeWhile annotates).length
          ++ v :: (before.drop ((before ++ v :: after).takeWhile annotates).length
            ++ after)) := by
  rw [visibilityFirst?, findIdx?_split hbefore hv]
  generalize ((before ++ v :: after).takeWhile annotates).length = lead
  simp only
  by_cases hlead : before.length ≤ lead
  · rw [if_pos hlead, if_pos hlead]
  · have hle : lead ≤ before.length := by omega
    have hv' : (before ++ v :: after)[before.length]? = some v := by simp
    have hafter : (before ++ v :: after).drop (before.length + 1) = after := by
      rw [List.drop_append]
      simp
    have hmid : ((before ++ v :: after).drop lead).take (before.length - lead)
        = before.drop lead := by
      rw [List.drop_append_of_le_length hle, List.take_append_of_le_length (by simp),
        List.take_of_length_le (by simp)]
    rw [if_neg hlead, if_neg hlead, hv', hafter, hmid, List.take_append_of_le_length hle]
    simp

theorem ordered_of_noVisibility (hws : ∀ w ∈ ws, lang.isVisibility w = false) :
    ordered lang ws = ws := by
  rw [ordered, visibilityFirst?_eq_none hws, Option.getD_none]

/-- Either there is no visibility, or the words are split at the first one. -/
theorem visibility_cases (lang : Language) (ws : List Text) :
    (∀ w ∈ ws, lang.isVisibility w = false) ∨
      ∃ before v after, ws = before ++ v :: after ∧ lang.isVisibility v = true ∧
        ∀ w ∈ before, lang.isVisibility w = false := by
  cases hfind : ws.find? lang.isVisibility with
  | none =>
    left
    simpa using hfind
  | some v =>
    obtain ⟨hv, before, after, hws, hbefore⟩ := List.find?_eq_some_iff_append.1 hfind
    exact Or.inr ⟨before, v, after, hws, hv, by simpa using hbefore⟩

theorem ordered_perm (lang : Language) (ws : List Text) : (ordered lang ws).Perm ws := by
  rcases visibility_cases lang ws with hws | ⟨before, v, after, rfl, hv, hbefore⟩
  · rw [ordered_of_noVisibility hws]
  · rw [ordered, visibilityFirst?_split hbefore hv]
    generalize ((before ++ v :: after).takeWhile annotates).length = lead
    split
    · exact List.Perm.refl _
    · have hmid : (before ++ v :: after).Perm (v :: (before ++ after)) := List.perm_middle
      rw [Option.getD_some]
      refine List.perm_middle.trans (List.Perm.trans ?_ hmid.symm)
      rw [← List.append_assoc, List.take_append_drop]

/-! ## The canonical layout -/

/-- Put `k` where it belongs. -/
def place (k : Text) : Placement → List Text → List Text
  | .free, ws => ws
  | .lineStart, ws => moveFirst k ws
  | .beforeKeyword, ws => moveLast k ws

theorem place_of_notMem (hk : k ∉ ws) (placement : Placement) : place k placement ws = ws := by
  cases placement with
  | free => rfl
  | lineStart => exact moveFirst_of_notMem hk
  | beforeKeyword => exact moveLast_of_notMem hk

theorem place_perm (k : Text) (placement : Placement) (ws : List Text) :
    (place k placement ws).Perm ws := by
  cases placement with
  | free => exact List.Perm.refl _
  | lineStart => exact moveFirst_perm k ws
  | beforeKeyword => exact moveLast_perm k ws

/-- The words with the token of a modifier in its place. -/
def placed (lang : Language) (m : Modifier) (ws : List Text) : List Text :=
  match lang.token? m with
  | none => ws
  | some tok => place tok.keyword tok.placement ws

/-- The words in the canonical layout. -/
def normalized (lang : Language) (ws : List Text) : List Text :=
  placed lang .noCompletion <|
  placed lang .inlined <|
  if lang.startWithModifiers then ordered lang (placed lang .final ws) else placed lang .final ws

theorem placed_perm (lang : Language) (m : Modifier) (ws : List Text) :
    (placed lang m ws).Perm ws := by
  unfold placed
  split
  · exact List.Perm.refl _
  · exact place_perm _ _ ws

/-- **The canonical layout has the same words.** -/
theorem normalized_perm (lang : Language) (ws : List Text) : (normalized lang ws).Perm ws := by
  have hordered : (if lang.startWithModifiers then ordered lang (placed lang .final ws)
      else placed lang .final ws).Perm ws := by
    split
    · exact (ordered_perm lang _).trans (placed_perm lang _ ws)
    · exact placed_perm lang _ ws
  exact ((placed_perm lang _ _).trans (placed_perm lang _ _)).trans hordered

/-! ## Changing the visibility -/

/-- The words with `new` in the place of the first visibility. -/
def replaceVisibility (lang : Language) (new : List Text) : List Text → List Text
  | [] => []
  | w :: ws => if lang.isVisibility w then new ++ ws else w :: replaceVisibility lang new ws

/-- The words with a visibility keyword in the place of the one they have, or else in front of them;
    an empty keyword stands for none. -/
def withVisibility (lang : Language) (keyword : Text) (ws : List Text) : List Text :=
  let new := if keyword.isEmpty then [] else [keyword]
  if ws.any lang.isVisibility then replaceVisibility lang new ws else new ++ ws

theorem replaceVisibility_split (new : List Text)
    (hbefore : ∀ w ∈ before, lang.isVisibility w = false) (hv : lang.isVisibility v = true) :
    replaceVisibility lang new (before ++ v :: after) = before ++ (new ++ after) := by
  induction before with
  | nil => simp [replaceVisibility, hv]
  | cons w before ih =>
    have hw := hbefore w List.mem_cons_self
    rw [List.cons_append, replaceVisibility, hw,
      ih fun u hu => hbefore u (List.mem_cons_of_mem _ hu)]
    simp

theorem withVisibility_of_noVisibility (keyword : Text)
    (hws : ∀ w ∈ ws, lang.isVisibility w = false) :
    withVisibility lang keyword ws = (if keyword.isEmpty then [] else [keyword]) ++ ws := by
  have hany : ¬ ws.any lang.isVisibility = true := by simpa using hws
  exact if_neg hany

theorem withVisibility_split (keyword : Text)
    (hbefore : ∀ w ∈ before, lang.isVisibility w = false) (hv : lang.isVisibility v = true) :
    withVisibility lang keyword (before ++ v :: after)
      = before ++ ((if keyword.isEmpty then [] else [keyword]) ++ after) := by
  have hany : (before ++ v :: after).any lang.isVisibility = true := by simp [hv]
  rw [withVisibility, if_pos hany, replaceVisibility_split _ hbefore hv]

/-! ## Jobs -/

/-- The words without the first token of a modifier. -/
def without (lang : Language) (m : Modifier) (ws : List Text) : List Text :=
  match lang.token? m with
  | some tok => ws.erase tok.keyword
  | none => ws

/-- The words with the token of a modifier behind them. -/
def withToken (lang : Language) (m : Modifier) (ws : List Text) : List Text :=
  match lang.token? m with
  | some tok => ws ++ [tok.keyword]
  | none => ws

/-- What a job makes of the words of a header. -/
def afterJob (lang : Language) (kind : Kind) (vis : Text) : Job → List Text → List Text
  | .changeAccess, ws => withVisibility lang (lang.visibilityKeyword kind vis) ws
  | .makeClassFinal, ws | .makeMethodFinal, ws => withToken lang .final ws
  | .makeClassNotFinal, ws | .makeMethodNotFinal, ws => without lang .final ws
  | .makeClassExternal, ws => withToken lang .external ws
  | .makeClassNotExternal, ws => without lang .external ws
  | .addStatic, ws =>
    withToken lang .static (if kind = .method then without lang .final ws else ws)
  | .removeStatic, ws => without lang .static ws
  | .addInline, ws => withToken lang .inlined ws
  | .removeInline, ws => without lang .inlined ws
  | .addNoCompletion, ws => withToken lang .noCompletion ws
  | .removeNoCompletion, ws => without lang .noCompletion ws
  | .unknown _, ws => ws

end ModifierToggle.HeaderWords
