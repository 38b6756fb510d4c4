import ModifierToggle.Proofs.FirstOccurrence
import ModifierToggle.Proofs.LineExchange
import ModifierToggle.Proofs.LineIndex
import ModifierToggle.Proofs.MenuAgain

set_option autoImplicit false

/-! # Searching a range of lines

A header is looked for from the top of a range of lines, the end of its code from the bottom, both
in the code lines of the range. The range may reach out of the buffer at either end. Here the two
searches are read against the comment lexer, started in code on the first line of the range: the
header is on the least line with a keyword in code, and the code ends behind the last byte outside
comments that is not white space (`Buffer.range_searches_lexed`).

The lexer decides which bytes are content (`Comment.View.content_iff`), and every line of the range
that the buffer has is one of the code lines (`Buffer.exists_codeLine`). -/

namespace ModifierToggle

/-! ## What is cut off at the end of a text -/

/-- What is left of a text reaches up to its last byte of another kind. -/
theorem Text.trimEndWhile_cases (p : UInt8 → Bool) (t : Text) :
    t.trimEndWhile p = [] ∧ (∀ x ∈ t, p x = true) ∨
      ∃ i x, (t.trimEndWhile p).length = i + 1 ∧ t[i]? = some x ∧ p x = false ∧
        ∀ j y, i < j → t[j]? = some y → p y = true := by
  induction t using List.reverseRecOn with
  | nil => exact Or.inl ⟨rfl, fun x hx => absurd hx List.not_mem_nil⟩
  | append_singleton t c ih =>
    cases hc : p c with
    | false =>
      refine Or.inr ⟨t.length, c, by simp [trimEndWhile_concat hc], by simp, hc, ?_⟩
      intro j y hj hy
      rw [List.getElem?_eq_none (by simp; omega)] at hy
      cases hy
    | true =>
      have htrim : Text.trimEndWhile p (t ++ [c]) = Text.trimEndWhile p t := by
        simp [trimEndWhile, hc]
      rw [htrim]
      rcases ih with ⟨hnil, hall⟩ | ⟨i, x, hlength, hx, hpx, hafter⟩
      · refine Or.inl ⟨hnil, fun x hx => ?_⟩
        rcases List.mem_append.1 hx with hx | hx
        · exact hall x hx
        · exact List.mem_singleton.1 hx ▸ hc
      · have hi := (List.getElem?_eq_some_iff.1 hx).1
        refine Or.inr ⟨i, x, hlength, by rw [List.getElem?_append_left hi, hx], hpx, ?_⟩
        intro j y hj hy
        rcases Nat.lt_or_ge j t.length with hlt | hge
        · rw [List.getElem?_append_left hlt] at hy
          exact hafter j y hj hy
        · rw [List.getElem?_append_right hge] at hy
          exact List.mem_singleton.1 (List.mem_of_getElem? hy) ▸ hc

theorem Buffer.isLineTail_eq_false_iff {x : UInt8} :
    isLineTail x = false ↔ x ≠ Byte.space ∧ x ≠ Byte.tab ∧ x ≠ Byte.carriageReturn := by
  simp [isLineTail, Byte.isBlank, and_assoc]

/-- The content of a line, byte by byte, is what the lexer has outside comments. -/
theorem Comment.View.content_iff {st : LexState} {x code : Text} (h : View st x code) {i : Nat}
    {c : UInt8} (hc : Buffer.isLineTail c = false) :
    code[i]? = some c ↔ st.placeAt x i = .code ∧ x[i]? = some c := by
  constructor
  · intro hi
    rcases h.byte i (List.getElem?_eq_some_iff.1 hi).1 with ⟨hplace, hbyte⟩ | ⟨-, hbyte⟩
    · exact ⟨hplace, hbyte ▸ hi⟩
    · -- a byte of a block comment is shown as a space
      obtain rfl : Byte.space = c := Option.some.inj (hbyte.symm.trans hi)
      cases hc
  · rintro ⟨hplace, hi⟩
    have hlt : i < code.length := by
      by_contra hge
      exact h.hidden i (Nat.not_lt.1 hge) (List.getElem?_eq_some_iff.1 hi).1 hplace
    rcases h.byte i hlt with ⟨-, hbyte⟩ | ⟨hblock, -⟩
    · exact hbyte.trans hi
    · rw [hplace] at hblock
      cases hblock

/-- A keyword that opens a declaration stands alone in the text. -/
def Language.HoldsStart (lang : Language) (t : Text) : Prop :=
  ∃ w ∈ lang.startWords, ∃ i, Keyword.StandsAt false w t i

namespace Buffer

open Comment Keyword

/-! ## The lexer on a range -/

/-- Line `n` is in the range, and there is such a line. -/
structure HasLine (b : Buffer) (span : Span) (n : Nat) : Prop where
  first_le : span.first ≤ n
  le_last : n ≤ span.last
  lt_count : n < b.lineCount

/-- How the lexer enters line `n`, where it starts in code on line `first`. -/
def lexStateAt (b : Buffer) (first : Int) (n : Nat) : LexState :=
  LexState.code.afterLines (b.linesAbove first n)

/-- The code of line `n` as the lexer has it. -/
def lexedCode (b : Buffer) (first : Int) (n : Nat) : Text := view (b.lexStateAt first n) (b.line n)

/-- A byte of the range that is outside comments and neither blank nor a carriage return. -/
def ContentAt (b : Buffer) (span : Span) (o : Nat) : Prop :=
  ∃ n i c, b.HasLine span n ∧ o = b.lineStart n + i ∧ (b.line n)[i]? = some c ∧
    (b.lexStateAt span.first n).placeAt (b.line n) i = .code ∧
    c ≠ Byte.space ∧ c ≠ Byte.tab ∧ c ≠ Byte.carriageReturn

/-- What a search for a header finds: the least line of the range with a keyword that opens a
    declaration, and the first such keyword on it, together with the white space byte behind it. -/
def HeaderFound (b : Buffer) (lang : Language) (span : Span) : Option Header → Prop
  | none => ∀ n, b.HasLine span n → ¬ lang.HoldsStart (b.lexedCode span.first n)
  | some header =>
    b.HasLine span header.line ∧
    (∀ n, b.HasLine span n → lang.HoldsStart (b.lexedCode span.first n) → header.line ≤ n) ∧
    ∃ w ∈ lang.startWords,
      StandsAt false w (b.lexedCode span.first header.line) header.start ∧
      header.stop = header.start + w.length + 1 ∧
      ∀ w' ∈ lang.startWords, ∀ i < header.start,
        ¬ StandsAt false w' (b.lexedCode span.first header.line) i

/-- What a search for the end of the code finds: the offset behind the last byte of content. -/
def EndFound (b : Buffer) (span : Span) : Option Nat → Prop
  | none => ∀ o, ¬ b.ContentAt span o
  | some stop => ∃ o, stop = o + 1 ∧ b.ContentAt span o ∧ ∀ o', b.ContentAt span o' → o' ≤ o

variable {b : Buffer} {span : Span} {lang : Language}

theorem code_eq_lexedCode (b : Buffer) (first : Int) (n : Nat) :
    b.code first n = b.lexedCode first n := by
  have hst : b.lexStateAt first n = .entering (openAfter false (b.linesAbove first n)) :=
    afterLines_eq false _
  rw [code_eq_stripLine, stripLine_eq_view, ← hst]
  rfl

/-- A code line of a range is a line of it, with the code that the lexer has. -/
theorem hasLine_of_codeLines {above below : List CodeLine} {l : CodeLine}
    (h : b.codeLines span = above ++ l :: below) :
    b.HasLine span l.number ∧ l.code = b.lexedCode span.first l.number := by
  obtain ⟨hnumber, hline, hlast, -⟩ := codeLines_split h
  refine ⟨⟨by omega, hlast, lt_lineCount_of_lines hline⟩, ?_⟩
  rw [← code_eq_lexedCode, code_eq (codeLines_upTo h)]

/-- Every line of a range is one of its code lines. -/
theorem exists_codeLine {n : Nat} (h : b.HasLine span n) :
    ∃ above l below, b.codeLines span = above ++ l :: below ∧ l.number = n := by
  have hlength : (b.codeLines span).length
      = min (span.last + 1).toNat b.lineCount - span.first.toNat := by
    have htexts := congrArg List.length (CodeLine.map_text_ofLines span.first.toNat false
      ((b.text.lines.take (span.last + 1).toNat).drop span.first.toNat))
    rw [← codeLines_eq, List.length_map, List.length_drop, List.length_take] at htexts
    rw [htexts, Text.lines, List.length_map]
    rfl
  obtain ⟨hfirst, hlast, hcount⟩ := h
  have hlt : n - span.first.toNat < (b.codeLines span).length := by omega
  have hsplit : b.codeLines span = (b.codeLines span).take (n - span.first.toNat)
      ++ (b.codeLines span)[n - span.first.toNat]
        :: (b.codeLines span).drop (n - span.first.toNat + 1) := by
    rw [List.getElem_cons_drop hlt, List.take_append_drop]
  refine ⟨_, _, _, hsplit, ?_⟩
  rw [(codeLines_split hsplit).1, List.length_take]
  omega

/-- Of two code lines of a range, the one with the smaller number stands above the other. -/
theorem mem_of_number_lt {above above' below below' : List CodeLine} {l l' : CodeLine}
    (h : b.codeLines span = above ++ l :: below) (h' : b.codeLines span = above' ++ l' :: below')
    (hlt : l'.number < l.number) : l' ∈ above ∧ l ∈ below' := by
  have hindex := (codeLines_split h).1
  have hindex' := (codeLines_split h').1
  have hget : (above ++ l :: below)[above'.length]? = some l' := by
    rw [← h, h']
    simp
  have hget' : (above' ++ l' :: below')[above.length]? = some l := by
    rw [← h', h]
    simp
  constructor
  · rw [List.getElem?_append_left (by omega)] at hget
    exact List.mem_of_getElem? hget
  · obtain ⟨k, hk⟩ : ∃ k, above.length - above'.length = k + 1 :=
      ⟨above.length - above'.length - 1, by omega⟩
    rw [List.getElem?_append_right (by omega), hk, List.getElem?_cons_succ] at hget'
    exact List.mem_of_getElem? hget'

/-! ## The header -/

theorem findStart?_startWords (hsound : lang.SoundKeywords)
    (hend : ∀ p ∈ lang.declarationStart, p.atEnd = false) (t : Text) :
    FoundFirst lang.startWords false t (lang.findStart? t) ∧
      ∀ at_ ∈ lang.findStart? t, at_.next = at_.stop + 1 := by
  cases hstart : lang.declarationStart with
  | none => simp [Language.findStart?, Language.startWords, hstart, FoundFirst]
  | some p =>
    have hwords : lang.startWords = p.words := by simp [Language.startWords, hstart]
    rw [hwords]
    exact findStart?_foundFirst hsound hstart (hend p hstart) t

theorem findHeader?_headerFound (hsound : lang.SoundKeywords)
    (hend : ∀ p ∈ lang.declarationStart, p.atEnd = false) (b : Buffer) (span : Span) :
    b.HeaderFound lang span (b.findHeader? lang span) := by
  -- a line without a keyword is one where none is found
  have hmiss : ∀ {above below : List CodeLine} {l : CodeLine},
      b.codeLines span = above ++ l :: below → l.start? lang = none →
      ¬ lang.HoldsStart (b.lexedCode span.first l.number) := by
    rintro above below l hsplit hnone ⟨w, hw, i, hstands⟩
    have hfound := (findStart?_startWords hsound hend l.code).1
    rw [CodeLine.start?] at hnone
    rw [hnone] at hfound
    exact hfound w hw i ((hasLine_of_codeLines hsplit).2 ▸ hstands)
  cases hheader : b.findHeader? lang span with
  | none =>
    intro n hn
    obtain ⟨above, l, below, hsplit, rfl⟩ := exists_codeLine hn
    refine hmiss hsplit ?_
    have hnone := List.findSome?_eq_none_iff.1 hheader l (by simp [hsplit])
    simpa using hnone
  | some header =>
    obtain ⟨above, l, below, hsplit, hl, habove⟩ := List.findSome?_eq_some_iff.1 hheader
    obtain ⟨at_, hat, rfl⟩ := Option.map_eq_some_iff.1 hl
    obtain ⟨hline, hcode⟩ := hasLine_of_codeLines hsplit
    obtain ⟨hfound, hnext⟩ := findStart?_startWords hsound hend l.code
    rw [CodeLine.start?] at hat
    rw [hat] at hfound
    obtain ⟨⟨w, hw, hstands, hstop⟩, hleast⟩ := hfound
    refine ⟨hline, fun n hn hstart => ?_, w, hw, hcode ▸ hstands, ?_, hcode ▸ hleast⟩
    · -- a line further up is among the code lines above, which have no keyword
      by_contra hlt
      obtain ⟨above', l', below', hsplit', rfl⟩ := exists_codeLine hn
      have hmem : l' ∈ above := (mem_of_number_lt hsplit hsplit' (Nat.not_le.1 hlt)).1
      exact hmiss hsplit' (by simpa using habove l' hmem) hstart
    · rw [hnext at_ hat, hstop]

/-! ## The end of the code -/

theorem lineStart_mono {m n : Nat} (hmn : m < n) (hn : n < b.lineCount) :
    b.lineEnd m ≤ b.lineStart n := by
  induction n with
  | zero => omega
  | succ n ih =>
    obtain ⟨hstart, hend, -⟩ := b.lineStart_le_lineEnd (by omega : n < b.lineCount)
    rcases Nat.lt_or_eq_of_le (Nat.le_of_lt_succ hmn) with hlt | rfl
    · exact Nat.le_trans (ih hlt (by omega)) (Nat.le_trans hstart hend)
    · exact hend

/-- The bytes of content on a line are those of its code that are not cut off at the end. -/
theorem contentAt_of_code {n i : Nat} {c : UInt8} (hn : b.HasLine span n)
    (hi : (b.lexedCode span.first n)[i]? = some c) (hc : isLineTail c = false) :
    b.ContentAt span (b.lineStart n + i) := by
  obtain ⟨hplace, hbyte⟩ := (view_spec _ _).content_iff hc |>.1 hi
  exact ⟨n, i, c, hn, rfl, hbyte, hplace, isLineTail_eq_false_iff.1 hc⟩

theorem ContentAt.exists_code {o : Nat} (h : b.ContentAt span o) :
    ∃ n i c, b.HasLine span n ∧ o = b.lineStart n + i ∧ o < b.lineEnd n ∧
      (b.lexedCode span.first n)[i]? = some c ∧ isLineTail c = false := by
  obtain ⟨n, i, c, hn, rfl, hbyte, hplace, hc⟩ := h
  have hlt := (List.getElem?_eq_some_iff.1 hbyte).1
  have hlength := b.length_line hn.lt_count
  have htail := isLineTail_eq_false_iff.2 hc
  exact ⟨n, i, c, hn, rfl, by omega, ((view_spec _ _).content_iff htail).2 ⟨hplace, hbyte⟩, htail⟩

/-- A line on which the search for the end of the code goes on has no content. -/
theorem isLineTail_of_mem {code : Text} {k : Nat}
    (h : (if (code.trimEndWhile isLineTail).isEmpty then none else some k) = none) {c : UInt8}
    (hc : c ∈ code) : isLineTail c = true := by
  rcases Text.trimEndWhile_cases isLineTail code with ⟨-, hall⟩ | ⟨i, x, hlength, -⟩
  · exact hall c hc
  · have hne : ¬ (code.trimEndWhile isLineTail).isEmpty = true := by
      intro hempty
      rw [List.isEmpty_iff.1 hempty] at hlength
      cases hlength
    rw [if_neg hne] at h
    cases h

theorem contentEnd?_endFound (b : Buffer) (span : Span) :
    b.EndFound span (b.contentEnd? span) := by
  cases hstop : b.contentEnd? span with
  | none =>
    intro o ho
    obtain ⟨n, i, c, hn, -, -, hcode, hc⟩ := ho.exists_code
    obtain ⟨above, l, below, hsplit, rfl⟩ := exists_codeLine hn
    rw [← (hasLine_of_codeLines hsplit).2] at hcode
    have hnone := List.findSome?_eq_none_iff.1 hstop l (by simp [hsplit])
    rw [isLineTail_of_mem hnone (List.mem_of_getElem? hcode)] at hc
    cases hc
  | some stop =>
    obtain ⟨later, l, earlier, hreverse, hl, hlater⟩ := List.findSome?_eq_some_iff.1 hstop
    have hsplit : b.codeLines span = earlier.reverse ++ l :: later.reverse := by
      rw [← (b.codeLines span).reverse_reverse, hreverse]
      simp
    obtain ⟨hline, hcode⟩ := hasLine_of_codeLines hsplit
    rcases Text.trimEndWhile_cases isLineTail l.code with
      ⟨hnil, -⟩ | ⟨i, x, hlength, hx, htail, hafter⟩
    · rw [hnil] at hl
      cases hl
    have hne : ¬ (l.code.trimEndWhile isLineTail).isEmpty = true := by
      intro hempty
      rw [List.isEmpty_iff.1 hempty] at hlength
      cases hlength
    rw [if_neg hne, hlength] at hl
    refine ⟨b.lineStart l.number + i, (Option.some.inj hl).symm,
      contentAt_of_code hline (hcode ▸ hx) htail, fun o ho => ?_⟩
    obtain ⟨n, j, c, hn, rfl, hlt, hj, hc⟩ := ho.exists_code
    rcases Nat.lt_trichotomy n l.number with hless | rfl | hgreater
    · have hmono := lineStart_mono hless hline.lt_count
      omega
    · -- on the same line, content does not go on behind the last byte of it
      by_contra hgt
      rw [hafter j c (by omega) (hcode ▸ hj)] at hc
      cases hc
    · -- the search has passed the lines below
      obtain ⟨above, l', below, hsplit', rfl⟩ := exists_codeLine hn
      rw [← (hasLine_of_codeLines hsplit').2] at hj
      have hmem := (mem_of_number_lt hsplit' hsplit hgreater).2
      rw [isLineTail_of_mem (hlater l' (List.mem_reverse.1 hmem)) (List.mem_of_getElem? hj)] at hc
      cases hc

/-- **The searches in a range agree with the comment lexer.** For every table that can be built,
    every buffer and every range of lines, in the buffer or not, with the lexer started in code on
    the first line of the range: removing comments gives the code of the lexer. The header found is
    on the least line of the range whose code holds a keyword that opens a declaration, at the first
    such keyword, and none is found only if there is no such line. The end of the code is behind the
    last byte of the range that is outside comments and neither blank nor a carriage return, and
    there is none only if there is no such byte. -/
theorem range_searches_lexed {name base : Text} {opts : LanguageOptions} {lang : Language}
    (hbuild : Language.build name base opts = .ok lang) (b : Buffer) (span : Span) :
    (∀ n : Nat, b.code span.first n = b.lexedCode span.first n) ∧
    b.HeaderFound lang span (b.findHeader? lang span) ∧
    b.EndFound span (b.contentEnd? span) := by
  have hend : ∀ p ∈ lang.declarationStart, p.atEnd = false := by
    obtain ⟨n, rfl | rfl⟩ := Language.build_cases hbuild
    · show ∀ p ∈ (Language.haxe {}).declarationStart, p.atEnd = false
      decide
    · show ∀ p ∈ (Language.actionScript3 {}).declarationStart, p.atEnd = false
      decide
  exact ⟨b.code_eq_lexedCode span.first,
    findHeader?_headerFound (Language.build_soundKeywords hbuild).1 hend b span,
    b.contentEnd?_endFound span⟩

/-- A keyword in a comment that is closed further down does not count, nor does what stands behind
    the last code; the range reaches out of the buffer at both ends. -/
theorem range_searches_lexed_commented :
    let b := ofText (utf8 "x /* var a\n function */ var /**/ \r\n \x7d // var\n/* class")
    Language.build [] (utf8 "haxe") {} = .ok (Language.haxe {}) ∧
    b.findHeader? (Language.haxe {}) ⟨-3, 9⟩ = some ⟨1, 13, 17⟩ ∧
    b.contentEnd? ⟨-3, 9⟩ = some 37 ∧
    b.HeaderFound (Language.haxe {}) ⟨-3, 9⟩ (some ⟨1, 13, 17⟩) ∧
    b.EndFound ⟨-3, 9⟩ (some 37) := by
  intro b
  have hbuild : Language.build [] (utf8 "haxe") {} = .ok (Language.haxe {}) := by decide
  have hheader : b.findHeader? (Language.haxe {}) ⟨-3, 9⟩ = some ⟨1, 13, 17⟩ := by decide
  have hstop : b.contentEnd? ⟨-3, 9⟩ = some 37 := by decide
  obtain ⟨-, hfound, hend⟩ := range_searches_lexed hbuild b ⟨-3, 9⟩
  exact ⟨hbuild, hheader, hstop, hheader ▸ hfound, hstop ▸ hend⟩

end Buffer

end ModifierToggle
