import ModifierToggle.Proofs.InsertedText
import ModifierToggle.Proofs.LexedWords
import ModifierToggle.Proofs.LineExchange

set_option autoImplicit false

/-! # Ordering modifiers as a permutation of words

Putting modifiers in order writes the words before the keyword of a header line anew, with single
spaces between them. The words are cut at any white space and may have comments in them, so that the
line may look quite different to those who read its code.

What is not in doubt is that the words are the same, in another order. No comment is opened or
closed by that: the only word that moves has neither a slash nor a star, and none of the others
starts with one (`LineEdit.IsRun`). So the keyword stays outside comments
(`Language.HeaderRun.reads_reordered`), and there are two things that can hide it. The white space
before it is kept only if it is blanks, and without it the last word is glued to the keyword; and
another word that opens a declaration may stand before it now, which it did not for the white space
behind it or the comment around it. `Editor.fixOrder_permutes_words` says that there is no third. -/

namespace ModifierToggle

open Comment (Mode Reads StartsClear IsClear LexState shown shownWords strip stripLine openAfter)
open Text (EndsOutsideWord FirstStanding)

/-! ## The run of words before the keyword -/

namespace LineEdit

/-- Words that can be written anew: a blank or nothing stands before them, and none of them starts
    with a slash or a star. -/
structure IsRun (pre run : Text) : Prop where
  before : run.words ≠ [] → ∀ b ∈ pre.getLast?, Byte.isBlank b = true
  clear : ∀ w ∈ run.words, StartsClear w

theorem isClear_word {w : Text} (hw : ∀ b ∈ w, Byte.isWord b = true) : IsClear w := by
  intro b hb
  have hword := hw b hb
  constructor
  · exact Byte.ne_slash_of_isWord hword
  · rintro rfl
    exact absurd hword (by decide)

theorem startsClear_of_annotates {w : Text} (hw : annotates w = true) : StartsClear w := by
  intro b hb
  have hhead : w.head? = some Byte.atSign := by simpa [annotates] using hw
  obtain rfl := Option.some.inj (hhead.symm.trans hb)
  decide

theorem startsClear_of_isModifierRun {run : Text} (h : isModifierRun run = true) :
    ∀ w ∈ run.words, StartsClear w := by
  intro w hw
  have hword := List.all_eq_true.1 h w hw
  rcases Bool.or_eq_true_iff.1 hword with hannotates | hplain
  · exact startsClear_of_annotates hannotates
  · have hbytes := List.all_eq_true.1 hplain
    exact (isClear_word fun b hb => Byte.isWord_of_isPlainWord (hbytes b hb)).startsClear

theorem IsPlainRun.isRun {pre run : Text} {ws : List Text} (h : IsPlainRun pre ws run) :
    IsRun pre run := by
  have hbytes : ∀ w ∈ ws, ∀ b ∈ w, Byte.isWord b = true := fun w hw b hb =>
    Byte.isWord_of_isPlainWord ((h.plain w hw).2 b hb)
  have hwords : run.words = ws :=
    h.spread.words_eq fun w hw => Text.words_word (hbytes w hw) (h.plain w hw).1
  refine ⟨fun hne => h.before (hwords ▸ hne), fun w hw => ?_⟩
  exact (isClear_word (hbytes w (hwords ▸ hw))).startsClear

/-- **The words that are put in order** are such a run, in both ways of finding them. -/
theorem exists_isRun {x u keyword z : Text} (hx : x = u ++ (keyword ++ z))
    (hword : ∀ b ∈ keyword, Byte.isWord b = true) (hne : keyword ≠ [])
    (hlast : EndsOutsideWord u) :
    ∃ pre run, u = pre ++ run ∧ pre.length = modifierRunStart x u.length ∧ IsRun pre run := by
  unfold modifierRunStart
  split
  · next hrun =>
    obtain ⟨blanks, run, hu, hblanks, -, hindent⟩ := Language.exists_indent_before hx hword hne
    have hmodifiers := (Bool.and_eq_true_iff.1 hrun).2
    rw [hu] at hx hmodifiers
    rw [Language.slice_indent hx hindent] at hmodifiers
    exact ⟨blanks, run, hu, hindent.symm, fun _ b hb => hblanks b (List.mem_of_getLast? hb),
      startsClear_of_isModifierRun hmodifiers⟩
  · have hplain : ∀ b ∈ u.getLast?, Byte.isPlainWord b = false := by
      intro b hb
      by_contra hne
      have hword : Byte.isWord b = true := Byte.isWord_of_isPlainWord (by simpa using hne)
      rw [hlast b hb] at hword
      cases hword
    obtain ⟨pre, ws, run, hu, hpre, hrun⟩ := exists_plainRun hx hplain
    exact ⟨pre, run, hu, hpre, hrun.isRun⟩

end LineEdit

namespace Text

theorem words_append_blank {u : Text} (hu : ∀ b ∈ u.getLast?, Byte.isBlank b = true) (v : Text) :
    words (u ++ v) = words u ++ words v := by
  cases u using List.reverseRecOn with
  | nil => rfl
  | append_singleton u b =>
    have hb := Byte.isSeparator_of_isBlank (hu b (by simp))
    rw [List.append_assoc, List.singleton_append, words_append_white hb, words_snoc_white hb]

theorem ne_nil_of_mem_words {w t : Text} (hw : w ∈ t.words) : w ≠ [] := by
  rintro rfl
  cases words_of_mem_words hw

theorem getLast?_append_join (ws : List Text) {s : Text} (hs : s ≠ []) (u : Text) :
    (u ++ join [Byte.space] (ws ++ [s])).getLast? = s.getLast? := by
  induction ws generalizing u with
  | nil => exact List.getLast?_append_of_ne_nil u hs
  | cons w ws ih =>
    have hjoin : join [Byte.space] (w :: ws ++ [s])
        = w ++ [Byte.space] ++ join [Byte.space] (ws ++ [s]) := by cases ws <;> rfl
    rw [hjoin, ← List.append_assoc, ih]

end Text

/-! ## What is seen of the words in another order -/

namespace LineEdit.IsRun

variable {pre run : Text} (h : IsRun pre run)

include h

theorem words_eq (hne : run.words ≠ []) (t : Text) : (pre ++ t).words = pre.words ++ t.words :=
  Text.words_append_blank (h.before hne) t

theorem after_eq {st : LexState} (hst : st.Settled) :
    st.after (pre ++ run) = (st.after pre).afterWords run.words := by
  rw [LexState.after_append (Comment.startsClear_of_words h.clear),
    Comment.after_eq_afterWords h.clear (hst.after pre)]

variable {ws : List Text} (hperm : ws.Perm run.words) (hne : run.words ≠ [])
  {trail : Text} (htrail : ∀ b ∈ trail, Byte.isBlank b = true)

include hperm

theorem startsClear_reordered : ∀ w ∈ ws, StartsClear w ∧ w ≠ [] := fun w hw =>
  ⟨h.clear w (hperm.mem_iff.1 hw), Text.ne_nil_of_mem_words (hperm.mem_iff.1 hw)⟩

include htrail

include hne in
theorem words_reordered :
    (pre ++ (Text.join [Byte.space] ws ++ trail)).words = pre.words ++ ws := by
  have hwords : ∀ w ∈ ws, w.words = [w] := fun w hw =>
    Text.words_of_mem_words (hperm.mem_iff.1 hw)
  rw [h.words_eq hne, (Text.isGap_blanks htrail).words_behind, Text.words_join hwords]

variable {st : LexState} (hst : st.Settled)

include hst

/-- Behind the words, the lexer is where they take it, -/
theorem after_reordered :
    st.after (pre ++ (Text.join [Byte.space] ws ++ trail)) = (st.after pre).afterWords ws := by
  have hws := h.startsClear_reordered hperm
  have hclear := Comment.isClear_blanks htrail
  have hjoin : StartsClear (Text.join [Byte.space] ws ++ trail) :=
    (Comment.startsClear_join hws).append fun _ => hclear.startsClear
  rw [LexState.after_append hjoin, LexState.after_append hclear.startsClear,
    Comment.after_join hws (hst.after pre)]
  exact ((hst.after pre).afterWords ws).after_clear hclear

include hne in
/-- and the words that stand in what is shown are those that stand in what they show. -/
theorem standing_reordered :
    (shown st (pre ++ (Text.join [Byte.space] ws ++ trail))).standing
      = (shown st pre).standing
        ++ (shownWords (st.after pre) ws).flatMap fun c => c.standing := by
  have hws := h.startsClear_reordered hperm
  have hclear := Comment.isClear_blanks htrail
  have hjoin : StartsClear (Text.join [Byte.space] ws ++ trail) :=
    (Comment.startsClear_join hws).append fun _ => hclear.startsClear
  have hends : EndsOutsideWord (shown st pre) := fun b hb =>
    Byte.isWord_of_isBlank (Comment.isBlank_getLast_shown hst (h.before hne) b hb)
  have hblanks := Comment.shown_blanks ((hst.after pre).after (Text.join [Byte.space] ws)) htrail
  rw [Comment.shown_append hjoin, Comment.shown_append hclear.startsClear,
    Text.standing_append hends, Text.standing_blanks_behind _ hblanks,
    Comment.shown_join hws (hst.after pre), Text.standing_join]

end LineEdit.IsRun

/-- What stands behind the words in another order is not glued to the last of them exactly if a
    blank stood before it, or that word does not end in a word byte. -/
theorem LineEdit.endsOutsideWord_reordered {run : Text} {ws : List Text}
    (hperm : ws.Perm run.words) (hne : run.words ≠ []) (pre : Text) :
    let trail := run.drop (run.trimEndWhile Byte.isBlank).length
    EndsOutsideWord (pre ++ (Text.join [Byte.space] ws ++ trail))
      ↔ (∃ b ∈ (pre ++ run).getLast?, Byte.isBlank b = true)
        ∨ ∀ s ∈ ws.getLast?, EndsOutsideWord s := by
  intro trail
  have hrun : run ≠ [] := by
    rintro rfl
    exact hne rfl
  rw [List.getLast?_append_of_ne_nil _ hrun]
  by_cases htrail : trail = []
  · have hlast := Text.trimmed_eq_nil_iff.1 htrail
    have hnot : ¬ ∃ b ∈ run.getLast?, Byte.isBlank b = true := by
      rintro ⟨b, hb, hblank⟩
      rw [hlast b hb] at hblank
      cases hblank
    obtain rfl | ⟨init, s, rfl⟩ := List.eq_nil_or_concat' ws
    · exact absurd hperm.nil_eq.symm hne
    · have hs : s ≠ [] := Text.ne_nil_of_mem_words (hperm.mem_iff.1 (by simp))
      rw [htrail, List.append_nil, or_iff_right hnot, EndsOutsideWord,
        Text.getLast?_append_join init hs]
      simp [EndsOutsideWord]
  · have hends : EndsOutsideWord trail := fun b hb =>
      Byte.isWord_of_isBlank (Text.isBlank_of_mem_trimmed (List.mem_of_getLast? hb))
    have hblank : ∃ b ∈ run.getLast?, Byte.isBlank b = true := by
      by_contra hnot
      refine htrail (Text.trimmed_eq_nil_iff.2 fun b hb => ?_)
      simpa using fun hblank => hnot ⟨b, hb, hblank⟩
    rw [← List.append_assoc]
    exact iff_of_true (.append (fun hnil => absurd hnil htrail) hends) (.inl hblank)

/-- The visibility that is moved, with the words before and behind it. -/
theorem HeaderWords.visibilityFirst?_eq_some {lang : Language} {ws ordered : List Text}
    (h : LineEdit.visibilityFirst? lang ws = some ordered) :
    ∃ lead mid v after, lang.isVisibility v = true ∧ ws = (lead ++ mid) ++ v :: after ∧
      ordered = lead ++ v :: (mid ++ after) := by
  rcases visibility_cases lang ws with hws | ⟨before, v, after, rfl, hv, hbefore⟩
  · rw [visibilityFirst?_eq_none hws] at h
    cases h
  · rw [visibilityFirst?_split hbefore hv] at h
    split at h
    · cases h
    · exact ⟨_, _, v, after, hv, by rw [List.take_append_drop], (Option.some.inj h).symm⟩

/-! ## The keyword behind the words -/

namespace Language

/-- The keyword that opens a declaration is found where it is if nothing before hides it or comes
    first. -/
theorem findStart?_at_iff {lang : Language} (hlang : lang.Customary)
    {code front keyword tail : Text}
    (hfirst : FirstStanding (· ∈ lang.startWords) false code front keyword tail) (t : Text) :
    (∃ at_, lang.findStart? (t ++ (keyword ++ tail)) = some at_ ∧ at_.start = t.length)
      ↔ EndsOutsideWord t ∧ ∀ k ∈ t.standing, k ∉ lang.startWords := by
  constructor
  · rintro ⟨at_, hat, hstart⟩
    obtain ⟨front', keyword', after', hfirst', hfront⟩ := exists_first_start hlang hat
    obtain ⟨rfl, -⟩ := List.append_inj hfirst'.text_eq (by omega)
    exact ⟨hfirst'.before_ends, hfirst'.first⟩
  · rintro ⟨hends, hmiss⟩
    exact findStart?_first hlang ⟨rfl, hends, hfirst.isWord, hfirst.ne_nil, hfirst.after_closes,
      hfirst.closedAtEnd, hfirst.holds, hmiss⟩

/-- The header line of a declaration, cut at the words that are put in order and at the keyword. -/
structure HeaderRun (lang : Language) (m : Mode) (x : Text) (at_ : Keyword.Occurrence)
    (pre run front keyword z tail : Text) : Prop where
  found : lang.findStart? (strip m x).1 = some at_
  text_eq : x = pre ++ run ++ (keyword ++ z)
  start_eq : at_.start = (pre ++ run).length
  first_eq : LineEdit.modifierRunStart x at_.start = pre.length
  isRun : LineEdit.IsRun pre run
  reads : Reads m (pre ++ run) front
  first : FirstStanding (· ∈ lang.startWords) false (strip m x).1 front keyword tail
  rest : (strip .code z).1 = tail

theorem exists_headerRun {lang : Language} (hlang : lang.Customary) {m : Mode} (hm : m.width = 0)
    {x : Text} {at_ : Keyword.Occurrence} (hat : lang.findStart? (strip m x).1 = some at_) :
    ∃ pre run front keyword z tail, lang.HeaderRun m x at_ pre run front keyword z tail := by
  obtain ⟨front, keyword, tail, u, z, hfirst, htext, hreads, hz, hstart⟩ :=
    exists_header hlang hm hat
  have hends : EndsOutsideWord u := (hreads.endsOutsideWord_iff hm).1 hfirst.before_ends
  obtain ⟨pre, run, rfl, hpre, hrun⟩ :=
    LineEdit.exists_isRun htext hfirst.isWord hfirst.ne_nil hends
  exact ⟨pre, run, front, keyword, z, tail, hat, htext, hstart, by rw [hstart, hpre], hrun, hreads,
    hfirst, by rw [hz]⟩

namespace HeaderRun

variable {lang : Language} {m : Mode} {x : Text} {at_ : Keyword.Occurrence}
  {pre run front keyword z tail : Text} (h : lang.HeaderRun m x at_ pre run front keyword z tail)

include h

theorem slice_eq : x.slice pre.length at_.start = run := by
  rw [Text.slice, h.start_eq, h.text_eq, List.take_left, List.drop_left]

theorem take_first : x.take pre.length = pre := by
  rw [h.text_eq, List.append_assoc, List.take_left]

theorem take_start : x.take at_.start = pre ++ run := by
  rw [h.start_eq, h.text_eq, List.take_left]

theorem drop_start : x.drop at_.start = keyword ++ z := by
  rw [h.start_eq, h.text_eq, List.drop_left]

variable (hm : m.width = 0)

include hm

theorem lexed : m.state.after (pre ++ run) = .code ∧ front = shown m.state (pre ++ run) := by
  obtain ⟨hafter, hfront⟩ := h.reads.lexed
  rw [hm] at hfront
  exact ⟨hafter, hfront⟩

/-- The code of the words. -/
theorem code_run :
    (strip m x).1.slice pre.length at_.start = shown (m.state.after pre) run := by
  have hfront := (h.lexed hm).2
  have hlength : front.length = at_.start := by rw [hfront, Comment.length_shown, h.start_eq]
  rw [Text.slice, h.first.text_eq, ← hlength, List.take_left, hfront,
    Comment.shown_append (Comment.startsClear_of_words h.isRun.clear)]
  exact List.drop_left' (Comment.length_shown _ _)

/-- Nothing that stands before the words opens a declaration. -/
theorem standing_before (hne : run.words ≠ []) :
    ∀ k ∈ (shown m.state pre).standing, k ∉ lang.startWords := by
  have hends : EndsOutsideWord (shown m.state pre) := fun b hb =>
    Byte.isWord_of_isBlank (Comment.isBlank_getLast_shown m.settled (h.isRun.before hne) b hb)
  intro k hk
  refine h.first.first k ?_
  rw [(h.lexed hm).2, Comment.shown_append (Comment.startsClear_of_words h.isRun.clear),
    Text.standing_append hends]
  exact List.mem_append_left _ hk

variable (hne : run.words ≠ []) {ws : List Text} (hperm : ws.Perm run.words)
  (hafter : (m.state.after pre).afterWords ws = (m.state.after pre).afterWords run.words)
  {trail : Text} (htrail : ∀ b ∈ trail, Byte.isBlank b = true)

include hperm hafter htrail

/-- The words in another order are read up to the keyword as before. -/
theorem reads_reordered :
    let q := pre ++ (Text.join [Byte.space] ws ++ trail)
    Reads m q (shown m.state q) := by
  intro q
  have hcode : m.state.after q = .code := by
    rw [h.isRun.after_reordered hperm htrail m.settled, hafter, ← h.isRun.after_eq m.settled]
    exact (h.lexed hm).1
  have hreads := Comment.reads_shown m q hcode
  rw [hm] at hreads
  exact hreads

theorem strip_reordered :
    let q := pre ++ (Text.join [Byte.space] ws ++ trail)
    (strip m (q ++ (keyword ++ z))).1 = shown m.state q ++ (keyword ++ tail) := by
  intro q
  have hreads := h.reads_reordered hm hperm hafter htrail
  rw [hreads.strip_append fun _ => Comment.not_opens_word h.first.isWord h.first.ne_nil z,
    Comment.strip_word h.first.isWord, h.rest]

theorem take_reordered :
    let q := pre ++ (Text.join [Byte.space] ws ++ trail)
    (strip m (q ++ (keyword ++ z))).1.take q.length = shown m.state q := by
  intro q
  rw [h.strip_reordered hm hperm hafter htrail]
  exact List.take_left' (Comment.length_shown m.state q)

/-- **The keyword is found behind the words in another order** exactly if it is not glued to the
    last of them, and none of them opens a declaration. -/
theorem start_reordered_iff (hlang : lang.Customary) :
    let q := pre ++ (Text.join [Byte.space] ws ++ trail)
    let code := (strip m (q ++ (keyword ++ z))).1
    (∃ at', lang.findStart? code = some at' ∧ at'.start = q.length)
      ↔ EndsOutsideWord q ∧ ∀ k ∈ Text.standing (code.take q.length), k ∉ lang.startWords := by
  intro q code
  have hreads := h.reads_reordered hm hperm hafter htrail
  have hfound := findStart?_at_iff hlang h.first (shown m.state q)
  rw [Comment.length_shown, hreads.endsOutsideWord_iff hm,
    ← h.strip_reordered hm hperm hafter htrail] at hfound
  rw [h.take_reordered hm hperm hafter htrail]
  exact hfound

include hne in
/-- A word that does not open a declaration itself may be moved: whether one of the words does can
    be seen beforehand. -/
theorem clear_moved_iff {v : Text} (hword : ∀ b ∈ v, Byte.isWord b = true)
    (hv : v ∉ lang.startWords) {lead mid after : List Text}
    (hws : ws = lead ++ v :: (mid ++ after)) (hrun : run.words = (lead ++ mid) ++ v :: after) :
    let q := pre ++ (Text.join [Byte.space] ws ++ trail)
    let code := (strip m (q ++ (keyword ++ z))).1
    (∀ k ∈ Text.standing (code.take q.length), k ∉ lang.startWords)
      ↔ ∀ c ∈ ((strip m x).1.slice pre.length at_.start).words,
          ∀ k ∈ c.standing, k ∉ lang.startWords := by
  intro q code
  have hst : (m.state.after pre).Settled := m.settled.after pre
  have hmem : ∀ k ∈ lang.startWords, (k ∈ (shown m.state q).standing
      ↔ k ∈ ((strip m x).1.slice pre.length at_.start).words.flatMap fun c => c.standing) := by
    intro k hk
    have hkv : k ≠ v := by
      rintro rfl
      exact hv hk
    have hmiss : k ∉ (shown m.state pre).standing := fun hmem => h.standing_before hm hne k hmem hk
    rw [h.isRun.standing_reordered hperm hne htrail m.settled, List.mem_append, or_iff_right hmiss,
      h.code_run hm, Comment.standing_words_shown h.isRun.clear hst, hrun, hws]
    exact Comment.mem_standing_move (LineEdit.isClear_word hword) hword hkv hst lead mid after
  rw [h.take_reordered hm hperm hafter htrail]
  constructor
  · intro hmiss c hc k hk hstart
    exact hmiss k ((hmem k hstart).2 (List.mem_flatMap.2 ⟨c, hc, hk⟩)) hstart
  · intro hmiss k hk hstart
    obtain ⟨c, hc, hkc⟩ := List.mem_flatMap.1 ((hmem k hstart).1 hk)
    exact hmiss c hc k hkc hstart

end HeaderRun

/-- The access names of the user's own are plain words. -/
def PlainAccess (lang : Language) : Prop :=
  ∀ v ∈ lang.customAccess, ∀ b ∈ v, Byte.isPlainWord b = true

theorem isWord_of_isVisibility {lang : Language} (hsound : lang.SoundKeywords)
    (haccess : lang.PlainAccess) {v : Text} (hv : lang.isVisibility v = true) :
    ∀ b ∈ v, Byte.isWord b = true := by
  obtain ⟨-, -, -, hown⟩ := hsound
  have hname : v ∈ lang.memberVisibilities ++ lang.classVisibilities →
      ∀ b ∈ v, Byte.isWord b = true := fun hmem =>
    Text.isWord_of_isHeaderWord (Text.isHeaderWord_of_isName (hown v hmem).1)
  rcases (mem_allVisibilities.1 (isVisibility_iff.1 hv)).1 with hmem | hmem | hmem
  · exact hname (List.mem_append_left _ hmem)
  · exact hname (List.mem_append_right _ hmem)
  · exact fun b hb => Byte.isWord_of_isPlainWord (haccess v hmem b hb)

theorem notStart_of_isVisibility {lang : Language} (hsound : lang.SoundKeywords)
    (haccess : ∀ v ∈ lang.customAccess, v ∉ lang.startWords) {v : Text}
    (hv : lang.isVisibility v = true) : v ∉ lang.startWords := by
  obtain ⟨-, -, -, hown⟩ := hsound
  rcases (mem_allVisibilities.1 (isVisibility_iff.1 hv)).1 with hmem | hmem | hmem
  · exact (hown v (List.mem_append_left _ hmem)).2.1
  · exact (hown v (List.mem_append_right _ hmem)).2.1
  · exact haccess v hmem

/-- **The header line with its modifiers put in order.** -/
theorem HeaderRun.exists_ordered {lang lang₀ : Language} {m : Mode} {x : Text}
    {at_ : Keyword.Occurrence} {pre run front keyword z tail : Text}
    (h : lang₀.HeaderRun m x at_ pre run front keyword z tail) (hm : m.width = 0)
    (hlang₀ : lang₀.Customary) (hstart : lang₀.declarationStart = lang.declarationStart)
    (hsound : lang.SoundKeywords) {ordered : List Text}
    (hordered : LineEdit.visibilityFirst? lang run.words = some ordered) (number : Nat) :
    ∃ q : Text,
      LineEdit.orderModifiers lang ⟨number, x, (strip m x).1⟩ = some (q ++ x.drop at_.start) ∧
      q.words = pre.words ++ ordered ∧ q.words.Perm (pre ++ run).words ∧
      (EndsOutsideWord q ↔ (∃ b ∈ (pre ++ run).getLast?, Byte.isBlank b = true)
        ∨ ∀ s ∈ ordered.getLast?, EndsOutsideWord s) ∧
      (lang.PlainAccess →
        let code := (strip m (q ++ x.drop at_.start)).1
        let clear := ∀ k ∈ Text.standing (code.take q.length), k ∉ lang.startWords
        ((∃ at', lang.findStart? code = some at' ∧ at'.start = q.length)
          ↔ EndsOutsideWord q ∧ clear) ∧
        ((∀ v ∈ lang.customAccess, v ∉ lang.startWords) →
          (clear ↔ ∀ c ∈ ((strip m x).1.slice pre.length at_.start).words,
            ∀ k ∈ c.standing, k ∉ lang.startWords))) := by
  have hfind := findStart?_congr hstart
  have hwords : lang.startWords = lang₀.startWords := by rw [startWords, startWords, hstart]
  obtain ⟨lead, mid, v, after, hv, hrun, hmoved⟩ := HeaderWords.visibilityFirst?_eq_some hordered
  have hne : run.words ≠ [] := by simp [hrun]
  have hperm : ordered.Perm run.words := by
    have := HeaderWords.ordered_perm lang run.words
    rwa [HeaderWords.ordered, hordered] at this
  have htrail : ∀ b ∈ run.drop (run.trimEndWhile Byte.isBlank).length, Byte.isBlank b = true :=
    fun b hb => Text.isBlank_of_mem_trimmed hb
  have hat : lang.findStart? (strip m x).1 = some at_ := (hfind _).trans h.found
  refine ⟨pre ++ (Text.join [Byte.space] ordered
    ++ run.drop (run.trimEndWhile Byte.isBlank).length), ?_, ?_, ?_, ?_, ?_⟩
  · simp only [LineEdit.orderModifiers, CodeLine.start?, hat, Option.map_some, h.first_eq,
      h.slice_eq, hordered, h.take_first]
    simp
  · exact h.isRun.words_reordered hperm hne htrail
  · rw [h.isRun.words_reordered hperm hne htrail, h.isRun.words_eq hne]
    exact hperm.append_left _
  · exact LineEdit.endsOutsideWord_reordered hperm hne pre
  · intro haccess code clear
    have hword := isWord_of_isVisibility hsound haccess hv
    have hafter : (m.state.after pre).afterWords ordered
        = (m.state.after pre).afterWords run.words := by
      rw [hmoved, hrun]
      exact Comment.afterWords_move (LineEdit.isClear_word hword) (m.settled.after pre) ..
    simp only [code, clear, hfind, h.drop_start, hwords]
    refine ⟨h.start_reordered_iff hm hperm hafter htrail hlang₀, fun hnot => ?_⟩
    have hv' : v ∉ lang.startWords := notStart_of_isVisibility hsound (hwords ▸ hnot) hv
    exact h.clear_moved_iff hm hne hperm hafter htrail hword (hwords ▸ hv') hmoved hrun

end Language

/-- The line of a header among the lines of its span. It is entered as `m` says, after the lines
    above it. -/
structure Buffer.HeaderLine (b : Buffer) (lang : Language) (span : Span) (number : Nat)
    (at_ : Keyword.Occurrence) (above below : List CodeLine) (m : Mode) (x : Text) : Prop where
  lines : b.codeLines span = above ++ ⟨number, x, (strip m x).1⟩ :: below
  above_none : ∀ l ∈ above, l.start? lang = none
  width_eq : m.width = 0
  entered : ∀ y, stripLine (openAfter false (above.map (·.text))) y = strip m y
  found : lang.findStart? (strip m x).1 = some at_
  getElem_eq : b.text.lines[number]? = some x
  line_eq : b.line number = x
  code_eq : b.code span.first number = (strip m x).1

theorem Buffer.exists_headerLine {b : Buffer} {lang : Language} {span : Span} {header : Header}
    (h : b.findHeader? lang span = some header) :
    ∃ number at_ above below m x, header = ⟨number, at_.start, at_.next⟩ ∧
      b.HeaderLine lang span number at_ above below m x := by
  obtain ⟨above, l, below, hlines, hl, habove⟩ := List.findSome?_eq_some_iff.1 h
  obtain ⟨at_, hat, rfl⟩ := Option.map_eq_some_iff.1 hl
  obtain ⟨number, x, code⟩ := l
  obtain ⟨-, hline, -, hcode⟩ := codeLines_split hlines
  obtain ⟨m, hm, hstrip⟩ := Comment.exists_mode (openAfter false (above.map (·.text)))
  simp only at hline hcode
  rw [hstrip] at hcode
  subst hcode
  have hx := line_of_lines hline
  have hcode := code_eq (codeLines_upTo hlines)
  have hnone : ∀ l ∈ above, l.start? lang = none := fun l hl => by simpa using habove l hl
  exact ⟨number, at_, above, below, m, x, rfl, hlines, hnone, hm, hstrip, hat, hline, hx, hcode⟩

namespace Editor

theorem fixOrder_of_noHeader {lang : Language} (scope : Option ToggleScope) {span : Span} {w : Work}
    (h : w.buffer.findHeader? lang span = none) :
    (⟨lang, scope⟩ : Editor).fixOrder span w = { work := w } := by
  have hnone : ∀ l ∈ w.buffer.codeLines span, LineEdit.orderModifiers lang l = none := by
    intro l hl
    have hstart : l.start? lang = none := by simpa using List.findSome?_eq_none_iff.1 h l hl
    rw [LineEdit.orderModifiers, hstart, Option.map_none]
  rw [fixOrder, Step.editLine, LineEdit.first?_eq_none hnone]
  rfl

theorem fixOrder_of_header {lang : Language} (scope : Option ToggleScope) {span : Span} {w : Work}
    {above below : List CodeLine} {l : CodeLine}
    (hlines : w.buffer.codeLines span = above ++ l :: below)
    (habove : ∀ l' ∈ above, l'.start? lang = none) (hne : l.text ≠ []) {new : Text}
    (hnew : LineEdit.orderModifiers lang l = some new) :
    (⟨lang, scope⟩ : Editor).fixOrder span w = Step.setLine scope l new w := by
  have htaken :
      (LineEdit.orderModifiers lang).first? (w.buffer.codeLines span) = some (l, new) := by
    rw [hlines]
    refine LineEdit.first?_split (fun l' hl' => ?_) hne hnew
    rw [LineEdit.orderModifiers, habove l' hl', Option.map_none]
  rw [fixOrder, Step.editLine, htaken]

/-- **Putting modifiers in order permutes the words before the keyword.** It does not fail. It does
    nothing where no declaration is opened in the span, or no visibility stands behind another
    modifier on the header line. Otherwise the part of the header line before the keyword is
    exchanged for one with the same words, those of the run with the visibility first, and the rest
    of the line stays.

    If the access names of the user's own are plain words, the keyword is found where that part ends
    exactly if it does not end in a word, and no word that opens a declaration stands in its code.
    Both can be seen beforehand, the latter if none of the access names opens a declaration: a blank
    stands before the keyword or the word that becomes the last one does not end in a word byte, and
    none of the words of the code of the run opens a declaration. -/
theorem fixOrder_permutes_words {name base : Text} {opts : LanguageOptions} {lang : Language}
    (hbuild : Language.build name base opts = .ok lang) (scope : Option ToggleScope) (span : Span)
    {w : Work} (hw : w.writesLeft ≠ some 0) :
    let o := (⟨lang, scope⟩ : Editor).fixOrder span w
    o.error = none ∧
    match w.buffer.findHeader? lang span with
    | none => o.work = w
    | some header =>
      let x := w.buffer.line header.line
      let first := LineEdit.modifierRunStart x header.start
      match LineEdit.visibilityFirst? lang (x.slice first header.start).words with
      | none => o.work = w
      | some ordered => ∃ q : Text,
        o.work.buffer.text = w.buffer.withLine header.line (q ++ x.drop header.start) ∧
        q.words = Text.words (x.take first) ++ ordered ∧
        q.words.Perm (Text.words (x.take header.start)) ∧
        (EndsOutsideWord q ↔ (∃ b ∈ (x.take header.start).getLast?, Byte.isBlank b = true)
          ∨ ∀ s ∈ ordered.getLast?, EndsOutsideWord s) ∧
        (lang.PlainAccess →
          let code := o.work.buffer.code span.first header.line
          let clear := ∀ k ∈ Text.standing (code.take q.length), k ∉ lang.startWords
          ((∃ at_, lang.findStart? code = some at_ ∧ at_.start = q.length)
            ↔ EndsOutsideWord q ∧ clear) ∧
          ((∀ v ∈ lang.customAccess, v ∉ lang.startWords) →
            (clear ↔
              ∀ c ∈ ((w.buffer.code span.first header.line).slice first header.start).words,
                ∀ k ∈ c.standing, k ∉ lang.startWords))) := by
  intro o
  cases hheader : w.buffer.findHeader? lang span with
  | none =>
    have ho : o = { work := w } := fixOrder_of_noHeader scope hheader
    rw [ho]
    exact ⟨rfl, rfl⟩
  | some header =>
    obtain ⟨number, at_, above, below, m, x, rfl, hl⟩ := Buffer.exists_headerLine hheader
    obtain ⟨lang₀, hlang₀, hstart, -⟩ := Language.exists_customary hbuild
    have hfound := (Language.findStart?_congr hstart _).symm.trans hl.found
    obtain ⟨pre, run, front, keyword, z, tail, hrun⟩ :=
      Language.exists_headerRun hlang₀ hl.width_eq hfound
    have hne : x ≠ [] := by simp [hrun.text_eq, hrun.first.ne_nil]
    simp only [hl.line_eq, hl.code_eq, hrun.first_eq, hrun.slice_eq, hrun.take_first,
      hrun.take_start]
    split
    · next hnone =>
      have hnew : LineEdit.orderModifiers lang ⟨number, x, (strip m x).1⟩ = some x := by
        simp only [LineEdit.orderModifiers, CodeLine.start?, hl.found, Option.map_some,
          hrun.first_eq, hrun.slice_eq, hnone]
      have ho : o = _ := fixOrder_of_header scope hl.lines hl.above_none hne hnew
      rw [ho, Step.setLine, if_pos rfl]
      exact ⟨rfl, rfl⟩
    · next ordered hordered =>
      have hsound := (Language.build_soundKeywords hbuild).1
      obtain ⟨q, hnew, hwords, hperm, hends, hkeyword⟩ :=
        hrun.exists_ordered hl.width_eq hlang₀ hstart hsound hordered number
      have ho : o = _ := fixOrder_of_header scope hl.lines hl.above_none hne hnew
      obtain ⟨herror, htext⟩ := Step.setLine_withLine scope hw (l := ⟨number, x, (strip m x).1⟩)
        hl.getElem_eq (q ++ x.drop at_.start)
      rw [← ho] at herror htext
      refine ⟨herror, q, htext, hwords, hperm, hends, fun haccess => ?_⟩
      obtain ⟨-, -, -, hnewline, -⟩ := Text.exists_site hl.getElem_eq
      have hnewline' := LineEdit.orderModifiers_oneLine lang _ _ hnewline hnew
      have hlast : (q ++ x.drop at_.start).getLast? = x.getLast? := by
        nth_rewrite 2 [← List.take_append_drop at_.start x]
        exact Text.getLast?_congr (by simp [hrun.drop_start, hrun.first.ne_nil])
      have hcode := Buffer.code_withLine (Buffer.codeLines_upTo hl.lines) hnewline' hlast htext
      simp only [hl.entered] at hcode
      rw [hcode]
      exact hkeyword haccess

/-- Modifiers with more than blanks between them. -/
def apartWork : Work :=
  { buffer := .ofText (utf8 "  @:keep static\u00a0public function f() \x7b\x7d") }

/-- Modifiers are put in order over any white space, and the keyword behind them is found. -/
theorem fixOrder_permutes_words_apart :
    let lang := Language.haxe {}
    let o := fixOrder ⟨lang, none⟩ ⟨0, 0⟩ apartWork
    Language.build [] (utf8 "haxe") {} = .ok lang ∧ apartWork.writesLeft ≠ some 0 ∧
    o.error = none ∧ ∃ q : Text, o.work.buffer.text = q ++ utf8 "function f() \x7b\x7d" ∧
      q.words = [utf8 "@:keep", utf8 "public", utf8 "static"] ∧
      ∃ at_, lang.findStart? (o.work.buffer.code 0 0) = some at_ ∧ at_.start = q.length := by
  intro lang o
  have hbuild : Language.build [] (utf8 "haxe") {} = .ok lang := rfl
  have hw : apartWork.writesLeft ≠ some 0 := by decide
  have hheader : apartWork.buffer.findHeader? lang ⟨0, 0⟩ = some ⟨0, 24, 33⟩ := by decide +kernel
  have hordered : LineEdit.visibilityFirst? lang ((apartWork.buffer.line 0).slice
      (LineEdit.modifierRunStart (apartWork.buffer.line 0) 24) 24).words
        = some [utf8 "@:keep", utf8 "public", utf8 "static"] := by decide +kernel
  have ho : o = fixOrder ⟨lang, none⟩ ⟨0, 0⟩ apartWork := rfl
  obtain ⟨herror, h⟩ := fixOrder_permutes_words hbuild none ⟨0, 0⟩ hw
  clear_value o
  simp only [hheader, Int.cast_ofNat_Int, hordered, ← ho] at herror h
  obtain ⟨q, htext, hwords, -, hends, hfound⟩ := h
  obtain ⟨hiff, hclear⟩ := hfound fun v hv => absurd hv List.not_mem_nil
  have hline : apartWork.buffer.withLine 0 (q ++ (apartWork.buffer.line 0).drop 24)
      = q ++ utf8 "function f() \x7b\x7d" := by
    show [] ++ (q ++ utf8 "function f() \x7b\x7d") ++ [] = _
    simp
  have hblank : ∃ b ∈ ((apartWork.buffer.line 0).take 24).getLast?, Byte.isBlank b = true :=
    ⟨Byte.space, by decide +kernel, rfl⟩
  have hmiss := (hclear fun v hv => absurd hv List.not_mem_nil).2 (by decide +kernel)
  have hfirst : Text.words ((apartWork.buffer.line 0).take
      (LineEdit.modifierRunStart (apartWork.buffer.line 0) 24)) = [] := by decide +kernel
  rw [hfirst] at hwords
  exact ⟨hbuild, hw, herror, q, htext.trans hline, hwords,
    hiff.2 ⟨hends.2 (.inl hblank), hmiss⟩⟩

/-- A form feed before the keyword is no blank: it is lost, and the keyword with it. -/
theorem fixOrder_glues_keyword :
    let lang := Language.haxe {}
    let w : Work := { buffer := .ofText (utf8 "x public\u000cfunction f() \x7b\x7d") }
    let o := fixOrder ⟨lang, none⟩ ⟨0, 0⟩ w
    o.work.buffer.text = utf8 "public xfunction f() \x7b\x7d" ∧
      lang.findStart? (w.buffer.code 0 0) ≠ none ∧
      lang.findStart? (o.work.buffer.code 0 0) = none := by
  decide

end Editor

end ModifierToggle
