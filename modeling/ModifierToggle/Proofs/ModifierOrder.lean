import Mathlib.Data.List.TakeWhile
import ModifierToggle.Proofs.HeaderWords
import ModifierToggle.Proofs.PlainRuns
import ModifierToggle.Proofs.SpreadWords
import ModifierToggle.Proofs.TokenPlacement

set_option autoImplicit false

/-! # Lines with modifiers put in order

The words between the indentation and the keyword of a header line are written anew when the
visibility comes to the front, or only the plain words directly before the keyword if there is
anything else on the line. Plain words stand for themselves wherever they are, so that the second
way is always safe. The first is safe on lines that let their words be taken for what they are
(`Language.Orderable`). Then the line shows the same afterwards
(`LineEdit.orderModifiers_showsSame`), and moving a token to the start of the line beforehand does
not make a difference (`Language.MovedToStart.orderable`). -/

namespace ModifierToggle

open Comment (Mode Reads strip stripLine)
open Text (EndsOutsideWord FirstStanding Rejoined Spread)

/-! ## The first visibility -/

theorem HeaderWords.find?_ordered (lang : Language) (ws : List Text) :
    (ordered lang ws).find? lang.isVisibility = ws.find? lang.isVisibility := by
  rcases visibility_cases lang ws with hws | ⟨before, v, after, rfl, hv, hbefore⟩
  · rw [ordered_of_noVisibility hws]
  · have hfirst : ∀ us : List Text, (∀ w ∈ us, w ∈ before) → ∀ vs : List Text,
        (us ++ v :: vs).find? lang.isVisibility = some v := by
      intro us hus vs
      have hnone : us.find? lang.isVisibility = none :=
        List.find?_eq_none.2 fun w hw => by simp [hbefore w (hus w hw)]
      rw [List.find?_append, hnone, Option.none_or, List.find?_cons_of_pos hv]
    rw [ordered, visibilityFirst?_split hbefore hv]
    split
    · rfl
    · rw [Option.getD_some, hfirst _ (fun w hw => List.mem_of_mem_take hw),
        hfirst before fun w hw => hw]

/-- The word is a visibility if one of the words in it is, and stands for itself then. -/
def Language.ShowsVisibility (lang : Language) (w : Text) : Prop :=
  ∀ v ∈ w.standing, lang.isVisibility v = true → v = w

instance (lang : Language) (w : Text) : Decidable (lang.ShowsVisibility w) :=
  inferInstanceAs (Decidable (∀ v ∈ w.standing, lang.isVisibility v = true → v = w))

theorem Language.find?_flatMap_standing {lang : Language} (hlang : lang.Regular) {ws : List Text}
    (hws : ∀ w ∈ ws, lang.ShowsVisibility w) :
    (ws.flatMap fun w => w.standing).find? lang.isVisibility = ws.find? lang.isVisibility := by
  induction ws with
  | nil => rfl
  | cons w ws ih =>
    have hrest := ih fun v hv => hws v (List.mem_cons_of_mem _ hv)
    rw [List.flatMap_cons, List.find?_append, hrest]
    cases hw : lang.isVisibility w with
    | true =>
      have hword := (hlang.visibility_word hw).1
      have hstanding := Text.standing_word (Text.isWord_of_isHeaderWord hword)
        (Text.ne_nil_of_isHeaderWord hword)
      rw [hstanding, List.find?_cons_of_pos hw, List.find?_cons_of_pos hw]
      rfl
    | false =>
      have hnone : w.standing.find? lang.isVisibility = none := by
        refine List.find?_eq_none.2 fun v hv hvis => ?_
        rw [hws w List.mem_cons_self v hv hvis, hw] at hvis
        cases hvis
      rw [hnone, Option.none_or, List.find?_cons_of_neg (by simp [hw])]

/-! ## The plain words before the keyword -/

namespace LineEdit

/-- The words are plain words. -/
def ArePlain (ws : List Text) : Prop := ∀ w ∈ ws, w ≠ [] ∧ ∀ b ∈ w, Byte.isPlainWord b = true

/-- A run of plain words, with a blank or nothing before it. -/
structure IsPlainRun (pre : Text) (ws : List Text) (run : Text) : Prop where
  spread : Spread ws run
  plain : ArePlain ws
  before : ws ≠ [] → ∀ b ∈ pre.getLast?, Byte.isBlank b = true

/-- A run of plain words that does not end inside a word has blanks behind each of them. -/
theorem exists_spread {run : Text} (h : Text.PlainRun run)
    (hlast : ∀ b ∈ run.getLast?, Byte.isPlainWord b = false) :
    ∃ ws, Spread ws run ∧ ArePlain ws := by
  induction h with
  | nil => exact ⟨[], .nil, by simp [ArePlain]⟩
  | @cons w gap run hw hplain hblank hgap hrun ih =>
    have hgap' : gap ≠ [] := by
      rintro rfl
      obtain ⟨v, b, rfl⟩ := (List.eq_nil_or_concat w).resolve_left hw
      have hb := hlast b (by simp [hgap rfl])
      rw [hplain b (by simp)] at hb
      cases hb
    obtain ⟨ws, hspread, hws⟩ := ih fun b hb => hlast b <| by
      rw [List.getLast?_append, List.getLast?_append, hb]
      rfl
    exact ⟨w :: ws, .cons hgap' hblank hspread, List.forall_mem_cons.2 ⟨⟨hw, hplain⟩, hws⟩⟩

/-- **The run of plain words before the keyword.** What stands before it is `pre`, unless the text
    ends inside a word. -/
theorem exists_plainRun {x u rest : Text} (hx : x = u ++ rest)
    (hlast : ∀ b ∈ u.getLast?, Byte.isPlainWord b = false) :
    ∃ pre ws run, u = pre ++ run ∧ pre.length = plainRunStart x u.length ∧
      IsPlainRun pre ws run := by
  obtain ⟨pre, run, hu, hlength, hbehind⟩ := exists_plainRunBehind u
  obtain ⟨ws, hspread, hplain⟩ := exists_spread hbehind.isRun fun b hb =>
    hlast b (by rw [hu, List.getLast?_append, hb]; rfl)
  refine ⟨pre, ws, run, hu, ?_, hspread, hplain, fun hne => hbehind.before fun hnil => ?_⟩
  · rw [plainRunStart, hx, List.take_left, ← hlength, hu, List.length_append, Nat.add_sub_cancel]
  · exact hne (hspread.eq_nil hnil)

end LineEdit

/-! ## The words before the keyword -/

namespace Language

/-- The words between the indentation and offset `stop` can be taken for what they are: there is no
    comment up to there, no white space but blanks, and no visibility inside a longer word. -/
structure RunStands (lang : Language) (code x : Text) (stop : Nat) : Prop where
  uncommented : code.take stop = x.take stop
  onlyBlanks : (x.slice x.indent stop).hasOnlyBlanks = true
  ends : ∀ b ∈ (x.slice x.indent stop).getLast?, Byte.isBlank b = true
  visible : ∀ w ∈ (x.slice x.indent stop).words, lang.ShowsVisibility w

instance (lang : Language) (code x : Text) (stop : Nat) : Decidable (lang.RunStands code x stop) :=
  decidable_of_iff
    (_ ∧ _ ∧ (x.slice x.indent stop).getLast?.all Byte.isBlank = true ∧ _)
    ⟨fun h => RunStands.mk h.1 h.2.1 (Option.all_eq_true _ _ |>.1 h.2.2.1) h.2.2.2,
      fun h => ⟨h.uncommented, h.onlyBlanks, Option.all_eq_true _ _ |>.2 h.ends, h.visible⟩⟩

theorem slice_indent {x blanks run rest : Text} (hx : x = blanks ++ run ++ rest)
    (hindent : x.indent = blanks.length) : x.slice x.indent (blanks ++ run).length = run := by
  rw [Text.slice, hindent, hx, List.take_left, List.drop_left]

theorem runStands_iff {lang : Language} {code x blanks run rest : Text}
    (hx : x = blanks ++ run ++ rest) (hindent : x.indent = blanks.length) :
    lang.RunStands code x (blanks ++ run).length ↔
      code.take (blanks ++ run).length = blanks ++ run ∧ run.hasOnlyBlanks = true ∧
        (∀ b ∈ run.getLast?, Byte.isBlank b = true) ∧ ∀ w ∈ run.words, lang.ShowsVisibility w := by
  have htake : x.take (blanks ++ run).length = blanks ++ run := by rw [hx, List.take_left]
  constructor
  · rintro ⟨huncommented, hblanks, hends, hvisible⟩
    rw [slice_indent hx hindent] at hblanks hends hvisible
    exact ⟨huncommented.trans htake, hblanks, hends, hvisible⟩
  · rintro ⟨huncommented, hblanks, hends, hvisible⟩
    rw [← slice_indent hx hindent] at hblanks hends hvisible
    exact ⟨huncommented.trans htake.symm, hblanks, hends, hvisible⟩

/-- If there are only modifiers before the keyword of the line, they can be taken for what they
    are. -/
def Orderable (lang : Language) (inBlock : Bool) (x : Text) : Prop :=
  ∀ at_, lang.findStart? (stripLine inBlock x).1 = some at_ →
    LineEdit.isModifierRun (x.slice x.indent at_.start) = true →
    lang.RunStands (stripLine inBlock x).1 x at_.start

instance (lang : Language) (inBlock : Bool) (x : Text) : Decidable (lang.Orderable inBlock x) :=
  inferInstanceAs (Decidable (∀ at_ ∈ lang.findStart? (stripLine inBlock x).1, _ → _))

/-- The run of words before the keyword, in the text behind `pre` and in the code behind
    `before`. -/
structure HasRun (lang : Language) (m : Mode) (u front pre before run : Text) : Prop where
  text_eq : u = pre ++ run
  code_eq : front = before ++ run
  reads : Reads m pre before
  spread : Spread run.words run
  reads_words : ∀ w ∈ run.words, Reads .code w w
  visible : ∀ w ∈ run.words, lang.ShowsVisibility w
  blank_before : run.words ≠ [] → ∀ b ∈ before.getLast?, Byte.isBlank b = true

section

variable {lang : Language} {m : Mode} {x u front keyword tail z : Text}
  (hx : x = u ++ (keyword ++ z)) (hreads : Reads m u front) (hm : m.width = 0)

include hx in
/-- The indentation before the keyword. -/
theorem exists_indent_before (hword : ∀ b ∈ keyword, Byte.isWord b = true) (hne : keyword ≠ []) :
    ∃ blanks run, u = blanks ++ run ∧ (∀ b ∈ blanks, Byte.isBlank b = true) ∧
      (∀ b ∈ run.head?, Byte.isBlank b = false) ∧ x.indent = blanks.length := by
  obtain ⟨blanks, run, rfl, hblanks, hhead, hlength⟩ := u.exists_indent
  refine ⟨blanks, run, rfl, hblanks, hhead, ?_⟩
  obtain ⟨b, keyword', rfl⟩ := List.exists_cons_of_ne_nil hne
  rw [hx, ← hlength]
  exact Text.indent_append (by simpa using Byte.isBlank_of_isWord (hword b List.mem_cons_self))

include hreads in
theorem hasRun_of_uncommented {blanks run : Text} (hu : u = blanks ++ run) (hfront : front = u)
    (hblanks : ∀ b ∈ blanks, Byte.isBlank b = true)
    (hhead : ∀ b ∈ run.head?, Byte.isBlank b = false) (honly : run.hasOnlyBlanks = true)
    (hends : ∀ b ∈ run.getLast?, Byte.isBlank b = true)
    (hvisible : ∀ w ∈ run.words, lang.ShowsVisibility w) :
    lang.HasRun m u front blanks blanks run := by
  rw [hfront] at hreads
  obtain rfl := hreads.mode_eq_code
  rw [hu] at hreads
  obtain ⟨hreadsBlanks, hreadsRun⟩ := hreads.self_append
  have hspread := Text.spread_words honly hhead hends
  exact ⟨hu, hfront.trans hu, hreadsBlanks, hspread, hspread.reads_words hreadsRun, hvisible,
    fun _ b hb => hblanks b (List.mem_of_getLast? hb)⟩

include hreads hm in
theorem hasRun_of_isPlainRun {pre run : Text} {ws : List Text} (hu : u = pre ++ run)
    (h : LineEdit.IsPlainRun pre ws run) : ∃ before, lang.HasRun m u front pre before run := by
  have hword : ∀ w ∈ ws, w ≠ [] ∧ ∀ b ∈ w, Byte.isWord b = true := fun w hw =>
    ⟨(h.plain w hw).1, fun b hb => Byte.isWord_of_isPlainWord ((h.plain w hw).2 b hb)⟩
  have hwords : run.words = ws :=
    h.spread.words_eq fun w hw => Text.words_word (hword w hw).2 (hword w hw).1
  subst hwords
  have hslash : ∀ b ∈ run, b ≠ Byte.slash := by
    intro b hb
    rcases h.spread.mem_cases hb with hb | ⟨w, hw, hb⟩
    · exact Byte.ne_slash_of_isSeparator (Byte.isSeparator_of_isBlank hb)
    · exact Byte.ne_slash_of_isWord ((hword w hw).2 b hb)
  rw [hu] at hreads
  obtain ⟨before, rfl, hbefore⟩ := hreads.append_inv hslash
  refine ⟨before, hu, rfl, hbefore, h.spread, ?_, ?_, ?_⟩
  · exact fun w hw => .of_noSlash fun b hb => Byte.ne_slash_of_isWord ((hword w hw).2 b hb)
  · intro w hw v hv _
    rw [Text.standing_word (hword w hw).2 (hword w hw).1] at hv
    exact List.mem_singleton.1 hv
  · intro hne b hb
    cases pre using List.reverseRecOn with
    | nil =>
      have hlength := hbefore.length_eq
      rw [hm, List.length_nil, Nat.add_zero, List.length_eq_zero_iff] at hlength
      rw [hlength] at hb
      cases hb
    | append_singleton pre c =>
      have hc := h.before hne c (by simp)
      obtain ⟨before', rfl, -⟩ := hbefore.snoc_inv
        (Byte.ne_slash_of_isSeparator (Byte.isSeparator_of_isBlank hc))
      obtain rfl : c = b := by simpa using hb
      exact hc

include hx hreads hm in
/-- **The run of words that is put in order.** -/
theorem exists_hasRun {code : Text}
    (hfirst : FirstStanding (· ∈ lang.startWords) false code front keyword tail)
    (hstands : LineEdit.isModifierRun (x.slice x.indent u.length) = true →
      lang.RunStands code x u.length) :
    ∃ pre before run, pre.length = LineEdit.modifierRunStart x u.length ∧
      lang.HasRun m u front pre before run := by
  obtain ⟨blanks, run, hu, hblanks, hhead, hindent⟩ :=
    exists_indent_before hx hfirst.isWord hfirst.ne_nil
  have hlength : front.length = u.length := by rw [hreads.length_eq, hm, Nat.zero_add]
  have hcode : code.take u.length = front := by rw [hfirst.text_eq, ← hlength, List.take_left]
  unfold LineEdit.modifierRunStart
  split
  · next hrun =>
    rw [Bool.and_eq_true] at hrun
    have hstands' := hstands hrun.2
    rw [hu] at hx hstands'
    obtain ⟨huncommented, honly, hends, hvisible⟩ := (runStands_iff hx hindent).1 hstands'
    rw [← hu] at huncommented
    exact ⟨blanks, blanks, run, hindent.symm, hasRun_of_uncommented hreads hu
      (hcode.symm.trans huncommented) hblanks hhead honly hends hvisible⟩
  · have hplain : ∀ b ∈ u.getLast?, Byte.isPlainWord b = false := by
      intro b hb
      by_contra hne
      have hword : Byte.isWord b = true := Byte.isWord_of_isPlainWord (by simpa using hne)
      obtain ⟨u', rfl⟩ := List.getLast?_eq_some_iff.1 hb
      obtain ⟨front', rfl, -⟩ := hreads.snoc_inv (Byte.ne_slash_of_isWord hword)
      rw [hfirst.before_ends b (by simp)] at hword
      cases hword
    obtain ⟨pre, ws, run, hu, hpre, hrun⟩ := LineEdit.exists_plainRun hx hplain
    obtain ⟨before, hbefore⟩ : ∃ before, lang.HasRun m u front pre before run :=
      hasRun_of_isPlainRun hreads hm hu hrun
    exact ⟨pre, before, run, hpre, hbefore⟩

end

namespace HasRun

variable {lang : Language} {m : Mode} {u front pre before run run' keyword tail z : Text}
  {ws : List Text} (h : lang.HasRun m u front pre before run) (hne : run.words ≠ [])
  (hspread : Spread ws run') (hperm : ws.Perm run.words)

include h hne hspread hperm

/-- With its words in another order, the line has them in another order in its code. -/
theorem strip_eq (hword : ∀ b ∈ keyword, Byte.isWord b = true) {opened : Bool}
    (hz : strip .code z = (tail, opened)) :
    strip m (pre ++ run' ++ (keyword ++ z)) = (before ++ run' ++ (keyword ++ tail), opened) := by
  have hrun' : Reads .code run' run' :=
    hspread.reads_self fun w hw => h.reads_words w (hperm.mem_iff.1 hw)
  have hreads : Reads m (pre ++ run') (before ++ run') := by
    refine h.reads.append hrun' fun hlast => ?_
    exact absurd (h.blank_before hne _ hlast) (by decide)
  have hlast : (before ++ run').getLast? ≠ some Byte.slash := by
    intro hlast
    have hrunNe : run' ≠ [] := by
      rintro rfl
      obtain rfl := hspread.eq_nil rfl
      exact hne hperm.nil_eq.symm
    rw [List.getLast?_append_of_ne_nil _ hrunNe] at hlast
    exact absurd (hspread.isBlank_getLast _ hlast) (by decide)
  have hkeyword := Comment.strip_append (fun b hb => Byte.ne_slash_of_isWord (hword b hb)) z
  rw [hreads.strip_append fun hslash => absurd hslash hlast, hkeyword, hz]

/-- So that it shows the same, if the same visibility comes first. -/
theorem seesSame (hlang : lang.Customary) {code : Text}
    (hfirst : FirstStanding (· ∈ lang.startWords) false code front keyword tail)
    (hvisibility : ws.find? lang.isVisibility = run.words.find? lang.isVisibility) :
    lang.SeesSame code (before ++ run' ++ (keyword ++ tail)) := by
  have hends : EndsOutsideWord before := fun b hb =>
    Byte.isWord_of_isBlank (h.blank_before hne b hb)
  have hslash : before.getLast? ≠ some Byte.slash := fun hlast =>
    absurd (h.blank_before hne _ hlast) (by decide)
  have hwords : ∀ {vs : List Text} {t : Text}, Spread vs t →
      (before ++ t).standing = before.standing ++ vs.flatMap fun w => w.standing := by
    intro vs t ht
    rw [Text.standing_append hends, ht.standing_eq]
  have hvisible : ∀ w ∈ ws, lang.ShowsVisibility w := fun w hw =>
    h.visible w (hperm.mem_iff.1 hw)
  refine .of_first hlang hfirst (.append (fun _ => hends) hspread.endsOutsideWord) ?_ ?_ ?_
  · rw [h.code_eq, hwords hspread, hwords h.spread]
    exact (hperm.flatMap_right _).append_left _
  · rw [h.code_eq, hwords hspread, hwords h.spread, List.find?_append, List.find?_append,
      find?_flatMap_standing hlang.toRegular hvisible,
      find?_flatMap_standing hlang.toRegular h.visible, hvisibility]
  · rw [h.code_eq, Text.hasLooseSlash_append hends hslash, Text.hasLooseSlash_append hends hslash,
      hspread.hasLooseSlash_eq, h.spread.hasLooseSlash_eq]
    simp only [Bool.or_eq_false_iff, List.any_eq_false]
    exact fun ⟨hbefore, hrun⟩ => ⟨hbefore, fun w hw => hrun w (hperm.mem_iff.1 hw)⟩

end HasRun

end Language

/-- The keyword that opens a declaration stands in the text where it is found in the code. -/
theorem Language.exists_header {lang : Language} (hlang : lang.Customary) {m : Mode}
    (hm : m.width = 0) {x : Text} {at_ : Keyword.Occurrence}
    (hat : lang.findStart? (strip m x).1 = some at_) :
    ∃ front keyword tail u z,
      FirstStanding (· ∈ lang.startWords) false (strip m x).1 front keyword tail ∧
      x = u ++ (keyword ++ z) ∧ Reads m u front ∧ strip .code z = (tail, (strip m x).2) ∧
      at_.start = u.length := by
  rcases lang.start_cases (strip m x).1 with hnone | ⟨front, keyword, tail, hfirst⟩
  · exact absurd (hat.symm.trans (findStart?_eq_none hlang hnone)) (by simp)
  · obtain ⟨at_', hat', hstart⟩ := findStart?_first hlang hfirst
    obtain rfl : at_' = at_ := Option.some.inj (hat'.symm.trans hat)
    have hcode : strip m x = (front ++ (keyword ++ tail), (strip m x).2) :=
      Prod.ext hfirst.text_eq rfl
    obtain ⟨u, z, htext, hreads, hz⟩ := Comment.exists_word hcode hfirst.ne_nil hfirst.isWord
    have hlength : at_'.start = u.length := by rw [hstart, hreads.length_eq, hm, Nat.zero_add]
    exact ⟨front, keyword, tail, u, z, hfirst, htext, hreads, hz, hlength⟩

namespace LineEdit

open HeaderWords (ordered ordered_perm find?_ordered)

/-- **Putting modifiers in order shows the same,** if they can be taken for what they are. -/
theorem orderModifiers_showsSame {lang : Language} (hlang : lang.Customary) {inBlock : Bool}
    {n : Nat} {x y : Text} (hx : lang.Orderable inBlock x)
    (h : orderModifiers lang ⟨n, x, (stripLine inBlock x).1⟩ = some y) :
    lang.ShowsSame inBlock x y := by
  obtain ⟨at_, hat, hy⟩ := Option.map_eq_some_iff.1 h
  obtain ⟨m, hm, hstripLine⟩ := Comment.exists_mode inBlock
  simp only [CodeLine.start?, Language.Orderable, hstripLine] at hat hx
  obtain ⟨front, keyword, tail, u, z, hfirst, htext, hreads, hz, hlength⟩ :=
    Language.exists_header hlang hm hat
  rw [hlength] at hy
  obtain ⟨pre, before, run, hpre, hrun⟩ := Language.exists_hasRun htext hreads hm hfirst
    fun hmodifiers => hlength ▸ hx at_ hat (hlength ▸ hmodifiers)
  have hslice : x.slice pre.length u.length = run := by
    rw [Text.slice, htext, List.take_left, hrun.text_eq, List.drop_left]
  simp only [← hpre, hslice] at hy
  split at hy
  · exact hy ▸ .refl _ _ _
  · next ordered' hordered =>
    have hperm := ordered_perm lang run.words
    have hvisibility := find?_ordered lang run.words
    rw [ordered, hordered, Option.getD_some] at hperm hvisibility
    have hne : run.words ≠ [] := by
      intro hnil
      rw [hnil] at hordered
      cases hordered
    have hne' : ordered' ≠ [] := by
      rintro rfl
      exact hne hperm.nil_eq.symm
    obtain ⟨hgap, hblank⟩ := hrun.spread.blanks_behind hne
    have hspread := Text.spread_join hne' hgap hblank
    have htake : x.take pre.length = pre := by
      rw [htext, hrun.text_eq, List.append_assoc, List.take_left]
    have hdrop : x.drop u.length = keyword ++ z := by rw [htext, List.drop_left]
    rw [htake, hdrop, List.append_assoc pre] at hy
    have hstrip := hrun.strip_eq hne hspread hperm hfirst.isWord hz
    refine ⟨?_, ?_, fun _ => ?_⟩
    · rw [hstripLine, hstripLine, ← hy, hstrip]
      exact hrun.seesSame hne hspread hperm hlang hfirst hvisibility
    · rw [hstripLine, hstripLine, ← hy, hstrip]
    · rw [← hy, htext]
      exact Text.getLast?_congr (by simp [hfirst.ne_nil])

end LineEdit

/-! ## Moving a token beforehand -/

namespace Text

/-- White space or nothing stands before offset `start` and from offset `stop` on. -/
def IsSetApart (x : Text) (start stop : Nat) : Prop :=
  (∀ b ∈ (x.take start).getLast?, Byte.isSeparator b = true) ∧
    ∀ b ∈ (x.drop stop).head?, Byte.isSeparator b = true

instance (x : Text) (start stop : Nat) : Decidable (x.IsSetApart start stop) :=
  decidable_of_iff ((x.take start).getLast?.all Byte.isSeparator = true ∧
    (x.drop stop).head?.all Byte.isSeparator = true)
    (and_congr (Option.all_eq_true _ _) (Option.all_eq_true _ _))

theorem indent_blanks {blanks v : Text} (hblanks : ∀ b ∈ blanks, Byte.isBlank b = true)
    (hv : ∀ b ∈ v.head?, Byte.isBlank b = false) : (blanks ++ v).indent = blanks.length := by
  rw [indent_append hv, indent, List.takeWhile_eq_self_iff.2 hblanks]

/-- The text `new` is `old` with the word `k`, which white space sets apart, moved to the front, so
    that `gap` is left in its place. -/
structure MovedToFront (k old new u v gap : Text) (s s' : UInt8) : Prop where
  old_eq : old = u ++ s :: (k ++ s' :: v)
  new_eq : new = k ++ Byte.space :: (u ++ (gap ++ v))
  isWord : ∀ b ∈ k, Byte.isWord b = true
  ne_nil : k ≠ []
  white_before : Byte.isSeparator s = true
  white_after : Byte.isSeparator s' = true
  gap_ne_nil : gap ≠ []
  mem_gap : ∀ b ∈ gap, b = s ∨ b = s'

namespace MovedToFront

variable {k old new u v gap : Text} {s s' : UInt8} (h : MovedToFront k old new u v gap s s')

include h

theorem words_ne_nil : old.words ≠ [] := by
  rw [h.old_eq, words_append_white h.white_before, words_append_white h.white_after,
    words_word h.isWord h.ne_nil]
  simp

theorem isBlank_head (rest : Text) : ∀ b ∈ (new ++ rest).head?, Byte.isBlank b = false := by
  obtain ⟨c, k', rfl⟩ := List.exists_cons_of_ne_nil h.ne_nil
  intro b hb
  obtain rfl : c = b := by simpa [h.new_eq] using hb
  exact Byte.isBlank_of_isWord (h.isWord c List.mem_cons_self)

theorem words_perm : new.words.Perm old.words := by
  have hgap : ∀ b ∈ gap, Byte.isSeparator b = true := by
    intro b hb
    rcases h.mem_gap b hb with rfl | rfl
    · exact h.white_before
    · exact h.white_after
  rw [h.new_eq, h.old_eq, words_append_white (by decide), words_gap h.gap_ne_nil hgap,
    words_append_white h.white_before, words_append_white h.white_after,
    words_word h.isWord h.ne_nil]
  show (k :: (u.words ++ v.words)).Perm (u.words ++ k :: v.words)
  exact List.perm_middle.symm

variable (hblanks : old.hasOnlyBlanks = true)

include hblanks

theorem hasOnlyBlanks_parts :
    u.hasOnlyBlanks = true ∧ k.hasOnlyBlanks = true ∧ v.hasOnlyBlanks = true ∧
      ∀ b ∈ gap, Byte.isBlank b = true := by
  rw [h.old_eq, hasOnlyBlanks_append h.white_before, hasOnlyBlanks_append h.white_after] at hblanks
  simp only [Bool.and_eq_true] at hblanks
  obtain ⟨⟨hu, hs⟩, ⟨hk, hs'⟩, hv⟩ := hblanks
  refine ⟨hu, hk, hv, fun b hb => ?_⟩
  rcases h.mem_gap b hb with rfl | rfl
  · exact hs
  · exact hs'

theorem hasOnlyBlanks_new : new.hasOnlyBlanks = true := by
  obtain ⟨hu, hk, hv, hgap⟩ := h.hasOnlyBlanks_parts hblanks
  rw [h.new_eq, hasOnlyBlanks_append (by decide), hk, hasOnlyBlanks_gap h.gap_ne_nil hgap hu hv]
  rfl

theorem isBlank_getLast (hlast : ∀ b ∈ old.getLast?, Byte.isBlank b = true) :
    ∀ b ∈ new.getLast?, Byte.isBlank b = true := by
  obtain ⟨-, -, -, hgap⟩ := h.hasOnlyBlanks_parts hblanks
  intro b hb
  cases v using List.reverseRecOn with
  | nil =>
    obtain ⟨gap', c, rfl⟩ := (List.eq_nil_or_concat' gap).resolve_left h.gap_ne_nil
    obtain rfl : c = b := by simpa [h.new_eq, List.getLast?_append, List.getLast?_cons] using hb
    exact hgap c (by simp)
  | append_singleton v c =>
    obtain rfl : c = b := by simpa [h.new_eq, List.getLast?_append, List.getLast?_cons] using hb
    exact hlast c (by simp [h.old_eq, List.getLast?_append, List.getLast?_cons])

end MovedToFront

end Text

namespace Language.MovedToStart

variable {lang : Language} {k x y blanks a c before after rest t code : Text} {opened : Bool}
  (h : lang.MovedToStart k x y blanks a c before after rest t code opened)

include h

/-- The words before the keyword, in the text before and after the move. -/
theorem exists_movedToFront (hlang : lang.Customary) {front keyword tail : Text}
    (hstart : FirstStanding (· ∈ lang.startWords) false (strip .code x).1 front keyword tail)
    (hbefore : ∀ b ∈ a.getLast?, Byte.isSeparator b = true)
    (hafter : ∀ b ∈ c.head?, Byte.isSeparator b = true) :
    ∃ z old new u v gap s s', Text.MovedToFront k old new u v gap s s' ∧
      x = blanks ++ old ++ (keyword ++ z) ∧ y = blanks ++ new ++ (keyword ++ z) ∧
      Reads .code (blanks ++ old) front ∧ strip .code z = (tail, opened) ∧
      ∃ front', front'.length = (blanks ++ new).length ∧
        FirstStanding (· ∈ lang.startWords) false (strip .code y).1 front' keyword tail := by
  obtain ⟨rfl, hpart, c₁, z, t₁, code₁, rfl, hreads, hz, ht, ht₁, hcode, hcode₁, hlength⟩ :=
    h.exists_keyword hlang hstart
  have hfirst : FirstStanding (· = k) true front (blanks ++ before) k after := hpart ▸ h.token.first
  have hc₁ : c₁ ≠ [] := by
    rintro rfl
    exact hfirst.after_ne_nil hstart.before_ends hreads.eq_nil
  obtain ⟨u, s, rfl⟩ := (List.eq_nil_or_concat' a).resolve_left h.front_ne_nil
  obtain ⟨s', v, rfl⟩ := List.exists_cons_of_ne_nil hc₁
  obtain ⟨gap, hne, hmem, rfl⟩ := ht₁.exists_gap
  have hslash : ∀ b ∈ k, b ≠ Byte.slash := fun b hb => Byte.ne_slash_of_isWord (hfirst.isWord b hb)
  refine ⟨z, u ++ s :: (k ++ s' :: v), k ++ Byte.space :: (u ++ (gap ++ v)), u, v, gap, s, s',
    ⟨rfl, rfl, hfirst.isWord, hfirst.ne_nil, hbefore s (by simp), hafter s' (by simp), hne, hmem⟩,
    ?_, ?_, ?_, hz, blanks ++ (k ++ Byte.space :: code₁), ?_, ?_⟩
  · simp [h.token.text_eq]
  · simp [h.line_eq, ht]
  · have hk : Reads .code (k ++ s' :: v) (k ++ after) :=
      (Reads.of_noSlash hslash).append hreads fun hlast =>
        absurd rfl (hslash _ (List.mem_of_getLast? hlast))
    have hx := h.token.reads.append hk fun _ =>
      Comment.not_opens_word hfirst.isWord hfirst.ne_nil _
    rw [hfirst.text_eq]
    simpa using hx
  · simp [hlength]
  · rw [h.strip_eq, hcode]
    have hfirst' := hstart.withFront
      (hfirst.endsOutsideWord_toStart rfl hcode₁ hstart.before_ends)
      fun w hw => (hfirst.perm_toStart rfl h.isBlank hcode₁).mem_iff.1 hw
    simpa using hfirst'

/-- **A line can still be put in order** when a token that is set apart has been moved to its
    start. -/
theorem orderable (hlang : lang.Customary) (hshows : lang.ShowsSame false x y)
    (hbefore : ∀ b ∈ a.getLast?, Byte.isSeparator b = true)
    (hafter : ∀ b ∈ c.head?, Byte.isSeparator b = true) (hx : lang.Orderable false x) :
    lang.Orderable false y := by
  intro at_ hat hmodifiers
  have hopens : (lang.findStart? (strip .code y).1).isSome
      = (lang.findStart? (strip .code x).1).isSome := hshows.sees.opens
  rcases lang.start_cases (strip .code x).1 with hnone | ⟨front, keyword, tail, hstart⟩
  · rw [Language.findStart?_eq_none hlang hnone] at hopens
    exact absurd (Option.isSome_of_eq_some hat) (by rw [stripLine]; simpa using hopens)
  · obtain ⟨z, old, new, u, v, gap, s, s', hmoved, hxText, hyText, hreads, hz, front', hlength,
      hstart'⟩ := h.exists_movedToFront hlang hstart hbefore hafter
    obtain ⟨atX, hatX, hatX_start⟩ := Language.findStart?_first hlang hstart
    obtain ⟨atY, hatY, hatY_start⟩ := Language.findStart?_first hlang hstart'
    obtain rfl : atY = at_ := Option.some.inj (hatY.symm.trans hat)
    have hxStart : atX.start = (blanks ++ old).length := by
      rw [hatX_start, hreads.length_eq, Mode.width, Nat.zero_add]
    have hyStart : atY.start = (blanks ++ new).length := hatY_start.trans hlength
    have hyIndent : y.indent = blanks.length := by
      rw [hyText, List.append_assoc]
      exact Text.indent_blanks h.isBlank (hmoved.isBlank_head _)
    rw [hyStart, slice_indent hyText hyIndent] at hmodifiers
    have hmodifiers' : LineEdit.isModifierRun old = true := by
      rw [LineEdit.isModifierRun, List.all_eq_true] at hmodifiers ⊢
      exact fun w hw => hmodifiers w (hmoved.words_perm.mem_iff.2 hw)
    have hstands := hx atX hatX (by rwa [hxStart, slice_indent hxText h.indent_eq])
    rw [hxStart] at hstands
    obtain ⟨huncommented, honly, hends, hvisible⟩ := (runStands_iff hxText h.indent_eq).1 hstands
    have hfront : front = blanks ++ old := by
      have htake : (strip .code x).1.take (blanks ++ old).length = front := by
        rw [← hxStart, hatX_start, hstart.text_eq, List.take_left]
      exact htake.symm.trans huncommented
    obtain ⟨blanks', run, hu, -, hhead, hindent⟩ :=
      exists_indent_before hxText hstart.isWord hstart.ne_nil
    obtain ⟨rfl, rfl⟩ := List.append_inj hu (h.indent_eq.symm.trans hindent)
    have hrun := hasRun_of_uncommented hreads rfl hfront h.isBlank hhead honly hends hvisible
    have hspread := Text.spread_words (hmoved.hasOnlyBlanks_new honly)
      (by simpa using hmoved.isBlank_head []) (hmoved.isBlank_getLast honly hends)
    have hstrip := hrun.strip_eq hmoved.words_ne_nil hspread hmoved.words_perm hstart.isWord hz
    rw [← hyText] at hstrip
    rw [hyStart]
    refine (runStands_iff hyText hyIndent).2 ⟨?_, hmoved.hasOnlyBlanks_new honly,
      hmoved.isBlank_getLast honly hends, fun w hw => hvisible w (hmoved.words_perm.mem_iff.1 hw)⟩
    show (strip .code y).1.take _ = _
    rw [hstrip, List.take_left]

end Language.MovedToStart

/-- A token that goes to the start of the line, or may stand anywhere, leaves the line such that it
    can be put in order, if white space sets the token apart. -/
theorem LineEdit.place?_orderable {lang : Language} (hlang : lang.Customary) {tok : Token}
    (htok : tok ∈ lang.tokens) (hplace : tok.placement ≠ .beforeKeyword) {inBlock : Bool} {n : Nat}
    {x y : Text} (hplaceable : lang.Placeable inBlock x) (hx : lang.Orderable inBlock x)
    (hapart : ∀ at_, tok.find? (lang.modifierPart (stripLine inBlock x).1) = some at_ →
      x.IsSetApart at_.start at_.stop)
    {r : LineEdit} (hr : place? lang tok = some r)
    (h : r ⟨n, x, (stripLine inBlock x).1⟩ = some y) : lang.Orderable inBlock y := by
  have hshows := place?_showsSame hlang htok hplaceable hr h
  have hfound := find?_isSome_of_place? hr h
  unfold place? at hr
  split at hr
  · cases hr
  · next hplacement =>
    obtain rfl := Option.some.inj hr
    obtain rfl := hplaceable.startsInCode tok htok hplacement hfound
    rcases moveToLineStart_cases hlang htok
      (hplaceable.noLooseSlash tok htok (by simp [hplacement]) hfound) h with
      rfl | ⟨blanks, a, c, before, after, rest, t, code, opened, at_, hmoved, hat, hstart, hstop⟩
    · exact hx
    · obtain ⟨hbefore, hafter⟩ := hapart at_ hat
      rw [hstart, hmoved.token.text_eq, List.take_left,
        List.getLast?_append_of_ne_nil _ hmoved.front_ne_nil] at hbefore
      rw [hstop, hmoved.token.text_eq, ← List.drop_drop, List.drop_left, List.drop_left] at hafter
      exact hmoved.orderable hlang hshows hbefore hafter hx
  · next hplacement => exact absurd hplacement hplace

end ModifierToggle
