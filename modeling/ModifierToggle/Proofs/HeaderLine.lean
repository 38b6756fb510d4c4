import ModifierToggle.Proofs.KeywordSearch
import ModifierToggle.Proofs.LineChange

set_option autoImplicit false

/-! # Header lines in their usual form

A header line in its usual form is an indentation, words with a space behind each, the keyword that
opens the declaration with white space behind it, and anything after that. A `HeaderFrame` is such a
line without its words, and `HeaderFrame.line` puts words into it.

What is found on such a line can be told from its words: the keyword of the frame opens the
declaration (`findStart?_front`), what stands before it is all that is searched
(`searchable_line`), and there a pattern is found exactly where one of the words is in it
(`find?_front`, `find?_front_eq_none`). -/

namespace ModifierToggle

namespace Language

/-! ## Tables whose keywords are words -/

/-- The keywords that open a declaration. -/
def startWords (lang : Language) : List Text := (lang.declarationStart.map (·.words)).getD []

/-- A word that may stand before the keyword on a header line. -/
def IsModifierWord (lang : Language) (w : Text) : Prop :=
  w.isHeaderWord = true ∧ w ∉ lang.startWords

instance (lang : Language) (w : Text) : Decidable (lang.IsModifierWord w) :=
  inferInstanceAs (Decidable (_ ∧ _))

/-- A table whose keywords are words, where modifiers and visibilities are recognised by their
    keywords and do not open declarations. -/
structure Regular (lang : Language) : Prop where
  start_word : ∀ w ∈ lang.startWords, w.isHeaderWord = true
  token_words : ∀ tok ∈ lang.tokens, tok.pattern.words = [tok.keyword]
  token_word : ∀ tok ∈ lang.tokens, lang.IsModifierWord tok.keyword
  visibility_words : lang.visibility.words = lang.allVisibilities
  visibility_name : ∀ v ∈ lang.allVisibilities, v.isName = true
  visibility_notStart : ∀ v ∈ lang.allVisibilities, v ∉ lang.startWords

end Language

/-- Header words make a plain pattern. -/
theorem Keyword.Pattern.plain_of_isHeaderWord {p : Pattern}
    (h : ∀ w ∈ p.words, w.isHeaderWord = true) : p.Plain := fun w hw =>
  ⟨Text.ne_nil_of_isHeaderWord (h w hw), Text.isWord_of_isHeaderWord (h w hw)⟩

namespace Language.Regular

variable {lang : Language}

theorem token_plain (hlang : lang.Regular) {tok : Token} (htok : tok ∈ lang.tokens) :
    tok.pattern.Plain := by
  apply Keyword.Pattern.plain_of_isHeaderWord
  intro w hw
  rw [hlang.token_words tok htok, List.mem_singleton] at hw
  exact hw ▸ (hlang.token_word tok htok).1

theorem visibility_word (hlang : lang.Regular) {v : Text} (hv : lang.isVisibility v = true) :
    lang.IsModifierWord v := by
  have hmem : v ∈ lang.allVisibilities := List.contains_iff_mem.1 hv
  exact ⟨Text.isHeaderWord_of_isName (hlang.visibility_name v hmem),
    hlang.visibility_notStart v hmem⟩

theorem visibility_plain (hlang : lang.Regular) : lang.visibility.Plain := by
  apply Keyword.Pattern.plain_of_isHeaderWord
  intro w hw
  rw [hlang.visibility_words] at hw
  exact Text.isHeaderWord_of_isName (hlang.visibility_name w hw)

theorem start_plain (hlang : lang.Regular) {p : Keyword.Pattern}
    (hp : lang.declarationStart = some p) : p.Plain := by
  apply Keyword.Pattern.plain_of_isHeaderWord
  intro w hw
  exact hlang.start_word w (by simpa [startWords, hp] using hw)

/-- No declaration is opened where there are no words. -/
theorem findStart?_noWord (hlang : lang.Regular) {t : Text}
    (ht : ∀ b ∈ t, Byte.isWord b = false) : lang.findStart? t = none := by
  rw [findStart?]
  cases hstart : lang.declarationStart with
  | none => rfl
  | some p => exact (hlang.start_plain hstart).find?_noWord ht

end Language.Regular

/-! ## Comments -/

/-- Text without a slash is code. -/
theorem Comment.strip_append {u : Text} (hu : ∀ b ∈ u, b ≠ Byte.slash) (v : Text) :
    strip .code (u ++ v) = (u ++ (strip .code v).1, (strip .code v).2) := by
  induction u with
  | nil => rfl
  | cons b u ih =>
    have hb := hu b List.mem_cons_self
    have hcons : strip .code (b :: (u ++ v))
        = (b :: (strip .code (u ++ v)).1, (strip .code (u ++ v)).2) := by
      rw [strip] <;> simp_all
    rw [List.cons_append, hcons, ih fun c hc => hu c (List.mem_cons_of_mem _ hc)]
    rfl

/-! ## Frames -/

/-- A header line in its usual form without its words. -/
structure HeaderFrame (lang : Language) where
  indentation : Text
  keyword : Text
  separator : UInt8
  tail : Text
  isBlank : ∀ b ∈ indentation, Byte.isBlank b = true
  keyword_mem : keyword ∈ lang.startWords
  isSeparator : Byte.isSeparator separator = true

namespace HeaderFrame

variable {lang : Language} (f : HeaderFrame lang)

/-- The line up to its keyword, with some words before it. -/
def front (ws : List Text) : Text := f.indentation ++ Text.spaced ws

/-- The line from some words on. -/
def rest (ws : List Text) : Text := Text.spaced ws ++ (f.keyword ++ f.separator :: f.tail)

/-- The line with the words in it. -/
def line (ws : List Text) : Text := f.indentation ++ f.rest ws

/-! ## Cutting the line between words -/

theorem front_nil : f.front [] = f.indentation := by simp [front]

theorem line_append (before after : List Text) :
    f.line (before ++ after) = f.front before ++ f.rest after := by
  simp [line, front, rest, List.append_assoc]

theorem line_eq (ws : List Text) : f.line ws = f.front ws ++ f.rest [] := by
  rw [← f.line_append, List.append_nil]

theorem rest_cons (w : Text) (ws : List Text) :
    f.rest (w :: ws) = w ++ Byte.space :: f.rest ws := by
  simp [rest]

theorem line_word (before : List Text) (w : Text) (after : List Text) :
    f.line (before ++ w :: after) = f.front before ++ (w ++ Byte.space :: f.rest after) := by
  rw [f.line_append, f.rest_cons]

theorem front_word (before : List Text) (w : Text) (after : List Text) :
    f.front (before ++ w :: after) = f.front before ++ (w ++ Byte.space :: Text.spaced after) := by
  simp [front, List.append_assoc]

theorem line_ne_nil (ws : List Text) : f.line ws ≠ [] := by
  simp [line, rest]

/-- The line ends the same whatever its words are. -/
theorem getLast?_line (ws vs : List Text) : (f.line ws).getLast? = (f.line vs).getLast? := by
  simp [line, rest, List.getLast?_append, List.getLast?_cons]

/-- The words can be read off the line. -/
theorem line_injective {ws vs : List Text} (hws : ∀ w ∈ ws, w.isHeaderWord = true)
    (hvs : ∀ v ∈ vs, v.isHeaderWord = true) (h : f.line ws = f.line vs) : ws = vs := by
  have hspaced : Text.spaced ws = Text.spaced vs :=
    List.append_cancel_right (List.append_cancel_left h)
  rw [← Text.words_spaced hws, hspaced, Text.words_spaced hvs]

theorem newline_notMem_line {ws vs : List Text} (hvs : ∀ v ∈ vs, v.isHeaderWord = true)
    (h : Byte.newline ∉ f.line ws) : Byte.newline ∉ f.line vs := by
  have hspaced : Byte.newline ∉ Text.spaced vs := by
    simp only [Text.spaced, List.mem_flatMap, List.mem_append, List.mem_singleton]
    rintro ⟨v, hv, hmem | hmem⟩
    · exact absurd (Text.isWord_of_isHeaderWord (hvs v hv) _ hmem) (by decide)
    · cases hmem
  simp only [line, rest, List.mem_append, not_or] at h ⊢
  exact ⟨h.1, hspaced, h.2.2⟩

/-! ## The bytes of the line -/

section

variable {ws : List Text} (hlang : lang.Regular) (hws : ∀ w ∈ ws, w.isHeaderWord = true)

include hlang hws

/-- Behind the indentation, and behind every word, another word or the keyword starts. -/
theorem rest_eq_cons : ∃ b t, f.rest ws = b :: t ∧ Byte.startsModifier b = true := by
  obtain ⟨w, t, hrest, hw⟩ : ∃ w t, f.rest ws = w ++ t ∧ w.isHeaderWord = true := by
    cases ws with
    | nil => exact ⟨f.keyword, f.separator :: f.tail, rfl, hlang.start_word _ f.keyword_mem⟩
    | cons w ws => exact ⟨w, _, f.rest_cons w ws, hws w List.mem_cons_self⟩
  cases w with
  | nil => cases hw
  | cons b w => exact ⟨b, w ++ t, hrest, Text.startsModifier_head hw⟩

theorem indent_rest : (f.rest ws).indent = 0 := by
  obtain ⟨b, t, hrest, hb⟩ := f.rest_eq_cons hlang hws
  have hblank : Byte.isBlank b = false := by
    cases hb' : Byte.isBlank b with
    | false => rfl
    | true => rw [Byte.startsModifier_of_isBlank hb'] at hb; cases hb
  simp [hrest, Text.indent, hblank]

theorem indent_line : (f.line ws).indent = f.indentation.length := by
  have hzero := f.indent_rest hlang hws
  rw [Text.indent, List.length_eq_zero_iff] at hzero
  rw [line, Text.indent, List.takeWhile_append_of_pos f.isBlank, hzero, List.append_nil]

/-- The first byte that a modifier can start with is behind the indentation. -/
theorem firstModifierByte_line : LineEdit.firstModifierByte (f.line ws) = f.indentation.length := by
  obtain ⟨b, t, hrest, hb⟩ := f.rest_eq_cons hlang hws
  have hfind : (f.line ws).findIdx? Byte.startsModifier = some f.indentation.length := by
    rw [line, hrest, List.findIdx?_append]
    have hnone : f.indentation.findIdx? Byte.startsModifier = none := by
      rw [List.findIdx?_eq_none_iff]
      exact fun c hc => Byte.startsModifier_of_isBlank (f.isBlank c hc)
    simp [hnone, List.findIdx?_cons, hb]
  rw [LineEdit.firstModifierByte, hfind]
  rfl

/-- Behind a word there is one space. -/
theorem skipBlanks_line (before : List Text) (w : Text) :
    (f.line (before ++ w :: ws)).skipBlanks ((f.front before).length + w.length)
      = (f.front before).length + w.length + 1 := by
  have hdrop : (f.line (before ++ w :: ws)).drop ((f.front before).length + w.length)
      = Byte.space :: f.rest ws := by
    rw [f.line_word, ← List.append_assoc, ← List.length_append, List.drop_left]
  have hindent : Text.indent (Byte.space :: f.rest ws) = 1 := by
    have hzero := f.indent_rest hlang hws
    rw [Text.indent] at hzero ⊢
    rw [List.takeWhile_cons, if_pos (by decide), List.length_cons, hzero]
  rw [Text.skipBlanks, hdrop, hindent]

end

/-! ## What is found on the line -/

section

variable {ws : List Text} {s : LineSite}

/-- Only the tail can have comments. -/
theorem stripLine_line (hlang : lang.Regular) (hws : ∀ w ∈ ws, w.isHeaderWord = true) :
    Comment.stripLine false (f.line ws)
      = (f.front ws ++ (f.keyword ++ f.separator :: (Comment.strip .code f.tail).1),
          (Comment.strip .code f.tail).2) := by
  have hslash : ∀ b ∈ f.front ws ++ f.keyword ++ [f.separator], b ≠ Byte.slash := by
    intro b hb
    simp only [front, Text.spaced, List.mem_append, List.mem_flatMap, List.mem_singleton] at hb
    rcases hb with ((hb | ⟨w, hw, hb | rfl⟩) | hb) | rfl
    · exact Byte.ne_slash_of_isSeparator (Byte.isSeparator_of_isBlank (f.isBlank b hb))
    · exact Byte.ne_slash_of_isWord (Text.isWord_of_isHeaderWord (hws w hw) b hb)
    · decide
    · exact Byte.ne_slash_of_isWord
        (Text.isWord_of_isHeaderWord (hlang.start_word _ f.keyword_mem) b hb)
    · exact Byte.ne_slash_of_isSeparator f.isSeparator
  have hline : f.line ws = f.front ws ++ f.keyword ++ [f.separator] ++ f.tail := by
    simp [line, front, rest, List.append_assoc]
  have hstrip : Comment.stripLine false (f.line ws) = Comment.strip .code (f.line ws) := rfl
  rw [hstrip, hline, Comment.strip_append hslash]
  simp [List.append_assoc]

theorem code_line (hlang : lang.Regular) (hws : ∀ w ∈ ws, w.isHeaderWord = true) :
    (s.codeLine (f.line ws)).code
      = f.front ws ++ (f.keyword ++ f.separator :: (Comment.strip .code f.tail).1) :=
  congrArg Prod.fst (f.stripLine_line hlang hws)

/-- **The keyword of the frame opens the declaration,** whatever follows it. -/
theorem findStart?_front (hlang : lang.Regular) (hws : ∀ w ∈ ws, lang.IsModifierWord w)
    (rest : Text) :
    lang.findStart? (f.front ws ++ (f.keyword ++ f.separator :: rest))
      = some ⟨(f.front ws).length, (f.front ws).length + f.keyword.length,
          (f.front ws).length + f.keyword.length + 1⟩ := by
  have hkeyword := f.keyword_mem
  rw [Language.findStart?]
  cases hstart : lang.declarationStart with
  | none => simp [Language.startWords, hstart] at hkeyword
  | some p =>
    have hp : lang.startWords = p.words := by simp [Language.startWords, hstart]
    exact (hlang.start_plain hstart).find?_word f.isBlank (fun w hw => (hws w hw).1)
      (fun w hw => hp ▸ (hws w hw).2) (hp ▸ hkeyword) f.isSeparator _

theorem start?_line (hlang : lang.Regular) (hws : ∀ w ∈ ws, lang.IsModifierWord w) :
    (s.codeLine (f.line ws)).start? lang
      = some ⟨(f.front ws).length, (f.front ws).length + f.keyword.length,
          (f.front ws).length + f.keyword.length + 1⟩ := by
  rw [CodeLine.start?, f.code_line hlang fun w hw => (hws w hw).1, f.findStart?_front hlang hws]

theorem searchable_line (hlang : lang.Regular) (hws : ∀ w ∈ ws, lang.IsModifierWord w) :
    (s.codeLine (f.line ws)).searchable lang = f.front ws := by
  rw [CodeLine.searchable, f.start?_line hlang hws]
  simp only
  rw [f.code_line hlang fun w hw => (hws w hw).1, List.take_left]

end

section

variable {p : Keyword.Pattern} (hp : p.Plain)

include hp

theorem find?_front_eq_none {ws : List Text} (hws : ∀ w ∈ ws, lang.IsModifierWord w)
    (hmiss : ∀ w ∈ ws, w ∉ p.words) : p.find? (f.front ws) = none :=
  hp.find?_spaced f.isBlank (fun w hw => (hws w hw).1) hmiss

theorem find?_front {before after : List Text} {w : Text}
    (hws : ∀ v ∈ before ++ w :: after, lang.IsModifierWord v)
    (hmiss : ∀ v ∈ before, v ∉ p.words) (hw : w ∈ p.words) :
    p.find? (f.front (before ++ w :: after))
      = some ⟨(f.front before).length, (f.front before).length + w.length,
          (f.front before).length + w.length + 1⟩ := by
  rw [f.front_word]
  exact hp.find?_word f.isBlank (fun v hv => (hws v (List.mem_append_left _ hv)).1) hmiss hw
    (by decide) _

end

end HeaderFrame

end ModifierToggle
