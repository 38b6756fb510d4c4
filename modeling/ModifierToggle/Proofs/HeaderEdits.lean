import ModifierToggle.Proofs.HeaderLine
import ModifierToggle.Proofs.HeaderWords

set_option autoImplicit false

/-! # Line edits as edits of words

A line edit works at byte offsets of a line. On a header line in its usual form it comes to an edit
of the words: one lemma per line edit says which. Since the line is again in its usual form, edits
can be followed one after the other in terms of words alone. -/

namespace ModifierToggle

open LineEdit (annotates)

/-! ## Lines without words -/

namespace LineEdit

variable {lang : Language} {tok : Token}

theorem searchable_noWord (hlang : lang.Regular) {l : CodeLine}
    (hl : ∀ b ∈ l.code, Byte.isWord b = false) : l.searchable lang = l.code := by
  rw [CodeLine.searchable, CodeLine.start?, hlang.findStart?_noWord hl]

theorem find?_searchable_noWord (hlang : lang.Regular) (htok : tok ∈ lang.tokens) {l : CodeLine}
    (hl : ∀ b ∈ l.code, Byte.isWord b = false) : tok.find? (l.searchable lang) = none := by
  rw [searchable_noWord hlang hl]
  exact (hlang.token_plain htok).find?_noWord hl

theorem replaceVisibility_needsWord (hlang : lang.Regular) (keyword : Text) :
    (replaceVisibility lang keyword).NeedsWord := by
  intro l hl
  rw [replaceVisibility, searchable_noWord hlang hl, Language.findVisibility?,
    hlang.visibility_plain.find?_noWord hl]
  rfl

theorem insertVisibility_needsWord (hlang : lang.Regular) (keyword : Text) :
    (insertVisibility lang keyword).NeedsWord := by
  intro l hl
  rw [insertVisibility, CodeLine.start?, hlang.findStart?_noWord hl]
  rfl

theorem addToken_needsWord (hlang : lang.Regular) (tok : Token) :
    (addToken lang tok).NeedsWord := by
  intro l hl
  rw [addToken, CodeLine.start?, hlang.findStart?_noWord hl]
  rfl

theorem removeToken_needsWord (hlang : lang.Regular) (htok : tok ∈ lang.tokens) :
    (removeToken lang tok).NeedsWord := by
  intro l hl
  rw [removeToken, find?_searchable_noWord hlang htok hl]
  rfl

theorem orderModifiers_needsWord (hlang : lang.Regular) : (orderModifiers lang).NeedsWord := by
  intro l hl
  rw [orderModifiers, CodeLine.start?, hlang.findStart?_noWord hl]
  rfl

theorem place?_needsWord (hlang : lang.Regular) (htok : tok ∈ lang.tokens) {r : LineEdit}
    (hr : place? lang tok = some r) : r.NeedsWord := by
  intro l hl
  have hnone := find?_searchable_noWord hlang htok hl
  unfold place? at hr
  split at hr
  · cases hr
  · cases hr
    rw [moveToLineStart, hnone]
    rfl
  · cases hr
    rw [moveBeforeKeyword, hnone]
    rfl

end LineEdit

/-! ## Cutting and inserting -/

namespace HeaderFrame

variable {lang : Language} (f : HeaderFrame lang) {before after : List Text} {w : Text}

theorem insertAt_line (before after : List Text) (w : Text) :
    LineEdit.insertAt (f.line (before ++ after)) w (f.front before).length
      = f.line (before ++ w :: after) := by
  rw [LineEdit.insertAt, f.line_append, List.take_left, List.drop_left, f.line_word]
  simp [List.append_assoc]

theorem take_line (before after : List Text) :
    (f.line (before ++ after)).take (f.front before).length = f.front before := by
  rw [f.line_append, List.take_left]

/-- What is left of the line behind a word and its space. -/
theorem drop_line (before after : List Text) (w : Text) :
    (f.line (before ++ w :: after)).drop ((f.front before).length + w.length + 1)
      = f.rest after := by
  rw [f.line_word, ← List.append_assoc, ← List.length_append, List.drop_append]
  simp

/-- Cutting a word out takes the space behind it along. -/
theorem cut_line (before after : List Text) (w : Text) :
    LineEdit.cut (f.line (before ++ w :: after)) (f.front before).length
        ((f.front before).length + w.length)
      = f.line (before ++ after) := by
  have htext : f.line (before ++ w :: after)
      = (f.front before ++ w) ++ Byte.space :: f.rest after := by
    rw [f.line_word, List.append_assoc]
  have hblank : LineEdit.blankAt (f.line (before ++ w :: after))
      ((f.front before).length + w.length) = true := by
    rw [LineEdit.blankAt, htext, ← List.length_append, List.getElem?_append_right (Nat.le_refl _)]
    simp [Byte.isBlank]
  rw [LineEdit.cut, hblank, if_pos rfl, f.take_line, f.drop_line, f.line_append]

/-- The words of the line can be read off its text. -/
theorem slice_line (before after : List Text) :
    (f.line (before ++ after)).slice f.indentation.length (f.front before).length
      = Text.spaced before := by
  rw [Text.slice, f.line_append, List.take_left, front, List.drop_left]

theorem length_indentation_le (ws : List Text) :
    f.indentation.length ≤ (f.front ws).length := by
  simp [front]

/-! ## Each line edit -/

section

variable {ws : List Text} {s : LineSite} {tok : Token} (hlang : lang.Regular)
  (hws : ∀ w ∈ ws, lang.IsModifierWord w)

include hlang hws

theorem addToken_line (tok : Token) :
    LineEdit.addToken lang tok (s.codeLine (f.line ws)) = some (f.line (ws ++ [tok.keyword])) := by
  have hinsert := f.insertAt_line ws [] tok.keyword
  rw [List.append_nil] at hinsert
  rw [LineEdit.addToken, f.start?_line hlang hws]
  exact congrArg some hinsert

theorem insertVisibility_line (keyword : Text) :
    LineEdit.insertVisibility lang keyword (s.codeLine (f.line ws))
      = some (f.line (keyword :: ws)) := by
  have hfirst := f.firstModifierByte_line hlang fun w hw => (hws w hw).1
  have hinsert := f.insertAt_line [] ws keyword
  rw [f.front_nil, List.nil_append, List.nil_append] at hinsert
  rw [LineEdit.insertVisibility, f.start?_line hlang hws]
  show some (LineEdit.insertAt (f.line ws) keyword (LineEdit.firstModifierByte (f.line ws))) = _
  rw [hfirst, hinsert]

/-- What is found of a token before the keyword. -/
theorem token_find?_front (htok : tok ∈ lang.tokens) :
    (tok.keyword ∉ ws ∧ tok.find? (f.front ws) = none) ∨
      ∃ before after, ws = before ++ tok.keyword :: after ∧ tok.keyword ∉ before ∧
        tok.find? (f.front ws)
          = some ⟨(f.front before).length, (f.front before).length + tok.keyword.length,
            (f.front before).length + tok.keyword.length + 1⟩ := by
  have hplain := hlang.token_plain htok
  have hpattern := hlang.token_words tok htok
  by_cases hk : tok.keyword ∈ ws
  · obtain ⟨before, after, rfl, hbefore⟩ := List.eq_append_cons_of_mem hk
    refine Or.inr ⟨before, after, rfl, hbefore, ?_⟩
    refine f.find?_front hplain hws (fun v hv => ?_) (by simp [hpattern])
    rw [hpattern, List.mem_singleton]
    exact fun h => hbefore (h ▸ hv)
  · refine Or.inl ⟨hk, f.find?_front_eq_none hplain hws fun v hv => ?_⟩
    rw [hpattern, List.mem_singleton]
    exact fun h => hk (h ▸ hv)

/-- What is found of visibilities before the keyword. -/
theorem findVisibility?_front :
    ((∀ w ∈ ws, lang.isVisibility w = false) ∧ lang.findVisibility? (f.front ws) = none) ∨
      ∃ before v after, ws = before ++ v :: after ∧ lang.isVisibility v = true ∧
        (∀ w ∈ before, lang.isVisibility w = false) ∧
        lang.findVisibility? (f.front ws)
          = some ⟨(f.front before).length, (f.front before).length + v.length,
            (f.front before).length + v.length + 1⟩ := by
  have hplain := hlang.visibility_plain
  have hpattern : ∀ w, w ∈ lang.visibility.words ↔ lang.isVisibility w = true := by
    intro w
    rw [hlang.visibility_words, Language.isVisibility, List.contains_iff_mem]
  rcases HeaderWords.visibility_cases lang ws with
    hnone | ⟨before, v, after, rfl, hv, hbefore⟩
  · refine Or.inl ⟨hnone, f.find?_front_eq_none hplain hws fun w hw => ?_⟩
    rw [hpattern, hnone w hw]
    simp
  · refine Or.inr ⟨before, v, after, rfl, hv, hbefore, ?_⟩
    refine f.find?_front hplain hws (fun w hw => ?_) ((hpattern v).2 hv)
    rw [hpattern, hbefore w hw]
    simp

theorem removeToken_line (htok : tok ∈ lang.tokens) :
    LineEdit.removeToken lang tok (s.codeLine (f.line ws))
      = if tok.keyword ∈ ws then some (f.line (ws.erase tok.keyword)) else none := by
  rcases f.token_find?_front hlang hws htok with
    ⟨hk, hfind⟩ | ⟨before, after, rfl, hk, hfind⟩
  · rw [LineEdit.removeToken, f.searchable_line hlang hws, hfind, if_neg hk]
    rfl
  · rw [LineEdit.removeToken, f.searchable_line hlang hws, hfind, if_pos (by simp),
      HeaderWords.erase_split hk]
    exact congrArg some (f.cut_line before after tok.keyword)

theorem moveToLineStart_line (htok : tok ∈ lang.tokens) :
    LineEdit.moveToLineStart lang tok (s.codeLine (f.line ws))
      = if tok.keyword ∈ ws then some (f.line (HeaderWords.moveFirst tok.keyword ws))
        else none := by
  have hindent := f.indent_line hlang fun w hw => (hws w hw).1
  rcases f.token_find?_front hlang hws htok with
    ⟨hk, hfind⟩ | ⟨before, after, rfl, hk, hfind⟩
  · rw [LineEdit.moveToLineStart, f.searchable_line hlang hws, hfind, if_neg hk]
    rfl
  · have hwords : (Text.spaced before).words = before :=
      Text.words_spaced fun w hw => (hws w (List.mem_append_left _ hw)).1
    rw [LineEdit.moveToLineStart, f.searchable_line hlang hws, hfind, if_pos (by simp),
      HeaderWords.moveFirst_split hk, Option.map_some]
    simp only [LineSite.codeLine, hindent, f.slice_line, hwords, f.length_indentation_le before,
      decide_true, Bool.true_and]
    -- with only annotations before it, the token counts as standing at the start already
    cases before.all annotates with
    | true => rfl
    | false =>
      have hinsert := f.insertAt_line [] (before ++ after) tok.keyword
      rw [f.front_nil, List.nil_append, List.nil_append] at hinsert
      simp only [Bool.false_eq_true, if_false]
      rw [f.cut_line, hinsert]

theorem moveBeforeKeyword_line (htok : tok ∈ lang.tokens) :
    LineEdit.moveBeforeKeyword lang tok (s.codeLine (f.line ws))
      = if tok.keyword ∈ ws then some (f.line (HeaderWords.moveLast tok.keyword ws))
        else none := by
  rcases f.token_find?_front hlang hws htok with
    ⟨hk, hfind⟩ | ⟨before, after, rfl, hk, hfind⟩
  · rw [LineEdit.moveBeforeKeyword, f.searchable_line hlang hws, hfind, if_neg hk]
    rfl
  · have hafter : ∀ w ∈ after, w.isHeaderWord = true := fun w hw => (hws w (by simp [hw])).1
    rw [LineEdit.moveBeforeKeyword, f.searchable_line hlang hws, hfind, if_pos (by simp),
      HeaderWords.moveLast_split hk, Option.map_some, f.start?_line hlang hws]
    simp only [LineSite.codeLine, f.skipBlanks_line hlang hafter, f.cut_line]
    congr 1
    split
    · -- the keyword follows the token directly: there is no word between them
      next hdirect =>
      have hnil : after = [] := by
        have hlength : (f.front (before ++ tok.keyword :: after)).length
            = (f.front before).length + tok.keyword.length + 1 + (Text.spaced after).length := by
          rw [f.front_word]
          simp only [List.length_append, List.length_cons]
          omega
        have hzero : Text.spaced after = [] := List.length_eq_zero_iff.1 (by omega)
        cases after with
        | nil => rfl
        | cons v after => simp at hzero
      rw [hnil, List.append_nil]
    · -- without the token the keyword stands as much further left as the line is shorter
      have hstart : (f.front (before ++ tok.keyword :: after)).length
          - ((f.line (before ++ tok.keyword :: after)).length - (f.line (before ++ after)).length)
          = (f.front (before ++ after)).length := by
        rw [f.line_eq (before ++ tok.keyword :: after), f.line_eq (before ++ after), f.front_word]
        simp only [front, Text.spaced_append, List.length_append, List.length_cons]
        omega
      have hinsert := f.insertAt_line (before ++ after) [] tok.keyword
      rw [List.append_nil] at hinsert
      rw [hstart, hinsert]

theorem replaceVisibility_line (keyword : Text) :
    LineEdit.replaceVisibility lang keyword (s.codeLine (f.line ws))
      = if ws.any lang.isVisibility then
          some (f.line
            (HeaderWords.replaceVisibility lang (if keyword.isEmpty then [] else [keyword]) ws))
        else none := by
  rcases f.findVisibility?_front hlang hws with
    ⟨hnone, hfind⟩ | ⟨before, v, after, rfl, hv, hbefore, hfind⟩
  · have hany : ws.any lang.isVisibility = false := by simpa using hnone
    rw [LineEdit.replaceVisibility, f.searchable_line hlang hws, hfind, hany]
    rfl
  · have hafter : ∀ w ∈ after, w.isHeaderWord = true := fun w hw => (hws w (by simp [hw])).1
    rw [LineEdit.replaceVisibility, f.searchable_line hlang hws, hfind, if_pos (by simp [hv]),
      HeaderWords.replaceVisibility_split _ hbefore hv, Option.map_some]
    simp only [LineSite.codeLine, f.skipBlanks_line hlang hafter, f.take_line, f.drop_line]
    cases keyword.isEmpty with
    | true =>
      simp only [if_true, List.nil_append]
      rw [f.line_append]
    | false =>
      simp only [Bool.false_eq_true, if_false, List.singleton_append]
      rw [f.line_word]
      simp [List.append_assoc]

/-- The modifiers that are put into order are all the words. -/
theorem modifierRunStart_line :
    LineEdit.modifierRunStart (f.line ws) (f.front ws).length = f.indentation.length := by
  have hwords : ∀ w ∈ ws, w.isHeaderWord = true := fun w hw => (hws w hw).1
  have hslice := f.slice_line ws []
  rw [List.append_nil] at hslice
  have hrun : LineEdit.isModifierRun (Text.spaced ws) = true := by
    rw [LineEdit.isModifierRun, Text.words_spaced hwords, List.all_eq_true]
    exact fun w hw => Text.annotates_or_plain (hwords w hw)
  rw [LineEdit.modifierRunStart, f.indent_line hlang hwords, hslice, hrun]
  simp [f.length_indentation_le ws]

theorem orderModifiers_line :
    LineEdit.orderModifiers lang (s.codeLine (f.line ws))
      = some (f.line (HeaderWords.ordered lang ws)) := by
  have hwords : ∀ w ∈ ws, w.isHeaderWord = true := fun w hw => (hws w hw).1
  have hslice := f.slice_line ws []
  rw [List.append_nil] at hslice
  rw [LineEdit.orderModifiers, f.start?_line hlang hws, Option.map_some]
  simp only [LineSite.codeLine, f.modifierRunStart_line hlang hws, hslice,
    Text.words_spaced hwords, HeaderWords.ordered]
  cases hfirst : LineEdit.visibilityFirst? lang ws with
  | none => rfl
  | some vs =>
    have hperm : vs.Perm ws := by
      have := HeaderWords.ordered_perm lang ws
      rwa [HeaderWords.ordered, hfirst] at this
    -- so there are words, and the space behind the last one is put back behind the new last one
    have hne : ws ≠ [] := by
      rintro rfl
      cases hfirst
    have htake : (f.line ws).take f.indentation.length = f.indentation := by
      rw [line, List.take_left]
    have hdrop : (f.line ws).drop (f.front ws).length = f.rest [] := by
      rw [f.line_eq, List.drop_left]
    have hjoin := Text.join_eq_spaced fun h => hne (List.nil_perm.1 (h ▸ hperm))
    simp only [Option.getD_some, htake, hdrop, Text.drop_trimEnd_spaced hne hwords]
    rw [List.append_assoc f.indentation, hjoin, f.line_eq vs, front]

/-- Placing a token on the line. -/
theorem place?_line (htok : tok ∈ lang.tokens) {r : LineEdit}
    (hr : LineEdit.place? lang tok = some r) :
    r (s.codeLine (f.line ws))
      = if tok.keyword ∈ ws then some (f.line (HeaderWords.place tok.keyword tok.placement ws))
        else none := by
  unfold LineEdit.place? at hr
  split at hr
  · cases hr
  · next hplacement =>
    cases hr
    rw [hplacement]
    exact f.moveToLineStart_line hlang hws htok
  · next hplacement =>
    cases hr
    rw [hplacement]
    exact f.moveBeforeKeyword_line hlang hws htok

end

end HeaderFrame

end ModifierToggle
