import ModifierToggle.Proofs.LineExchange
import ModifierToggle.Proofs.SpanFrame
import ModifierToggle.Proofs.VisibilityAgreement

set_option autoImplicit false

/-! # Primitive edits keep the declaration

What the editor finds among the modifiers of a line ends before the keyword that opens the
declaration, and so do the blanks behind it, since the keyword is none. So no line edit touches the
line from the keyword on (`LineEdit.KeepsDeclaration`). Each primitive edit gives at most one line
of its span a new text (`Editor.primitive_keepsDeclaration`), whether or not the replacement is
accepted. -/

namespace ModifierToggle

/-! ## Line edits end before the keyword -/

/-- Where a line has the keyword that opens a declaration, the edit keeps what follows from there
    on. -/
def LineEdit.KeepsDeclaration (lang : Language) (r : LineEdit) : Prop :=
  ∀ l new at_, l.Aligned lang → r l = some new → l.start? lang = some at_ →
    l.text.drop at_.start <:+ new

namespace CodeLine.Aligned

variable {lang : Language} {l : CodeLine} {at_ keyword : Keyword.Occurrence}
  (h : l.Aligned lang)

include h

/-- A line is split at the keyword that opens a declaration, which does not begin with a blank. -/
theorem exists_declaration (hat : l.start? lang = some at_) :
    ∃ front back, l.text = front ++ back ∧ front.length = at_.start ∧
      l.text.drop at_.start = back ∧ back ≠ [] ∧ ∀ b ∈ back.head?, Byte.isBlank b = false := by
  obtain ⟨-, front, k, y, htext, hfront, hk⟩ := h.start at_ hat
  obtain ⟨c, k, rfl⟩ := List.exists_cons_of_ne_nil (Text.ne_nil_of_isHeaderWord hk)
  have hc := Byte.isBlank_of_isWord (Text.isWord_of_isHeaderWord hk c List.mem_cons_self)
  refine ⟨front, c :: k ++ y, htext, hfront, ?_, by simp, by simpa using hc⟩
  rw [htext, ← hfront, List.drop_left]

/-- Blanks that are skipped before the keyword end there at the latest. -/
theorem skipBlanks_le (hat : l.start? lang = some at_) {i : Nat} (hi : i ≤ at_.start) :
    l.text.skipBlanks i ≤ at_.start := by
  obtain ⟨front, back, htext, hfront, -, -, hback⟩ := h.exists_declaration hat
  have hdrop : l.text.drop i = front.drop i ++ back := by
    rw [htext, List.drop_append_of_le_length (by omega)]
  have hindent : Text.indent (front.drop i) ≤ (front.drop i).length :=
    (List.takeWhile_prefix _).length_le
  rw [List.length_drop] at hindent
  rw [Text.skipBlanks, hdrop, Text.indent_append hback]
  omega

/-- What is left of a line without a token ends with the declaration, and what stands before that
    begins with all that stood before the token, but for a blank. -/
theorem cut_split {tok : Token} (htok : tok ∈ lang.tokens)
    (hat : tok.find? (l.searchable lang) = some at_) (hkeyword : l.start? lang = some keyword) :
    ∃ front, LineEdit.cut l.text at_.start at_.stop = front ++ l.text.drop keyword.start ∧
      at_.start ≤ front.length + 1 ∧
      keyword.start - (l.text.length - (LineEdit.cut l.text at_.start at_.stop).length)
        = front.length := by
  obtain ⟨hstop, a, y, htext, ha, hlength, -⟩ := h.token tok htok at_ hat
  have hsearchable := CodeLine.searchable_le_start hkeyword
  obtain ⟨before, back, htext', hbefore, hback, -, hblank⟩ := h.exists_declaration hkeyword
  -- the token, and then the keyword
  obtain ⟨mid, rfl, rfl⟩ : ∃ mid, before = a ++ tok.keyword ++ mid ∧ y = mid ++ back := by
    have hsplit : (a ++ tok.keyword) ++ y = before ++ back := by
      rw [List.append_assoc, ← htext, htext']
    rcases List.append_eq_append_iff.1 hsplit with ⟨mid, hmid, hy⟩ | ⟨mid, hmid, hy⟩
    · exact ⟨mid, hmid, hy⟩
    · have hle := congrArg List.length hmid
      simp only [List.length_append] at hle
      obtain rfl : mid = [] := List.length_eq_zero_iff.1 (by omega)
      exact ⟨[], by simpa using hmid.symm, by simpa using hy.symm⟩
  have hrejoined := LineEdit.cut_rejoined a tok.keyword (mid ++ back)
  rw [← htext, ha, ← hlength] at hrejoined
  have hsum : l.text.length = keyword.start + back.length := by
    rw [htext', List.length_append, hbefore]
  simp only [List.length_append] at hbefore
  rw [hback]
  generalize LineEdit.cut l.text at_.start at_.stop = rest at hrejoined ⊢
  have hfront : ∀ front, rest = front ++ back → front.length ≤ keyword.start →
      keyword.start - (l.text.length - rest.length) = front.length := by
    rintro front rfl hle
    rw [List.length_append]
    omega
  cases hrejoined with
  | exact =>
    refine ⟨a ++ mid, by simp, ?_, hfront _ (by simp) ?_⟩ <;> rw [List.length_append] <;> omega
  | @blankAfter c rest hc hcons =>
    -- the blank is not that of the declaration, which begins with none
    cases mid with
    | nil => rw [List.nil_append] at hcons; simp [hblank c (by simp [hcons])] at hc
    | cons d mid =>
      obtain ⟨-, rfl⟩ := List.cons.inj hcons
      rw [List.length_cons] at hbefore
      refine ⟨a ++ mid, by simp, ?_, hfront _ (by simp) ?_⟩ <;> rw [List.length_append] <;> omega
  | @blankBefore c a' _ ha' =>
    rw [ha', List.length_append, List.length_singleton] at ha hbefore
    refine ⟨a' ++ mid, by simp, ?_, hfront _ (by simp) ?_⟩ <;> rw [List.length_append] <;> omega

end CodeLine.Aligned

namespace LineEdit

variable (lang : Language)

theorem suffix_insertAt {front back : Text} {i : Nat} (hi : i ≤ front.length) (keyword : Text) :
    back <:+ insertAt (front ++ back) keyword i := by
  rw [insertAt, List.drop_append_of_le_length hi, ← List.append_assoc]
  exact List.suffix_append _ _

theorem replaceVisibility_keepsDeclaration (keyword : Text) :
    (replaceVisibility lang keyword).KeepsDeclaration lang := by
  intro l new start h hnew hstart
  obtain ⟨at_, hat, -⟩ := Option.map_eq_some_iff.1 hnew
  obtain ⟨-, hstop⟩ := h.visibility at_ hat
  have hle := h.skipBlanks_le hstart (hstop.trans (CodeLine.searchable_le_start hstart))
  rw [replaceVisibility_eq_some hat] at hnew
  obtain rfl := Option.some.inj hnew
  exact (List.drop_suffix_drop_left _ hle).trans (List.suffix_append _ _)

theorem insertVisibility_keepsDeclaration (keyword : Text) :
    (insertVisibility lang keyword).KeepsDeclaration lang := by
  intro l new start h hnew hstart
  obtain ⟨-, -, rfl⟩ := Option.map_eq_some_iff.1 hnew
  obtain ⟨u, c, v, -, hu, -, -, hle⟩ := h.firstModifierByte_split hstart
  obtain ⟨front, back, htext, hfront, hback, -⟩ := h.exists_declaration hstart
  rw [hback, ← hu, htext]
  exact suffix_insertAt (by omega) keyword

theorem addToken_keepsDeclaration (tok : Token) : (addToken lang tok).KeepsDeclaration lang := by
  intro l new start h hnew hstart
  rw [addToken, hstart] at hnew
  obtain rfl := Option.some.inj hnew
  exact List.suffix_append _ _

theorem orderModifiers_keepsDeclaration : (orderModifiers lang).KeepsDeclaration lang := by
  intro l new start h hnew hstart
  rw [orderModifiers, hstart] at hnew
  obtain rfl := Option.some.inj hnew
  simp only
  split
  · exact List.drop_suffix _ _
  · exact List.suffix_append _ _

section

variable {tok : Token} (htok : tok ∈ lang.tokens)

include htok

theorem removeToken_keepsDeclaration : (removeToken lang tok).KeepsDeclaration lang := by
  intro l new start h hnew hstart
  obtain ⟨at_, hat, rfl⟩ := Option.map_eq_some_iff.1 hnew
  obtain ⟨front, hcut, -, -⟩ := h.cut_split htok hat hstart
  rw [hcut]
  exact List.suffix_append _ _

theorem moveToLineStart_keepsDeclaration : (moveToLineStart lang tok).KeepsDeclaration lang := by
  intro l new start h hnew hstart
  obtain ⟨at_, hat, rfl⟩ := Option.map_eq_some_iff.1 hnew
  rw [decide_eq_true (h.indent_le htok hat), Bool.true_and]
  split
  · exact List.drop_suffix _ _
  · next hwords =>
    have hindent := h.indent_lt htok hat hwords
    obtain ⟨front, hcut, hle, -⟩ := h.cut_split htok hat hstart
    rw [hcut]
    exact suffix_insertAt (by omega) tok.keyword

theorem moveBeforeKeyword_keepsDeclaration :
    (moveBeforeKeyword lang tok).KeepsDeclaration lang := by
  intro l new start h hnew hstart
  obtain ⟨at_, hat, rfl⟩ := Option.map_eq_some_iff.1 hnew
  simp only [hstart]
  split
  · exact List.drop_suffix _ _
  · obtain ⟨front, hcut, -, hshift⟩ := h.cut_split htok hat hstart
    rw [hshift, hcut]
    exact suffix_insertAt (Nat.le_refl _) tok.keyword

theorem place?_keepsDeclaration {r : LineEdit} (hr : place? lang tok = some r) :
    r.KeepsDeclaration lang := by
  unfold place? at hr
  split at hr
  · cases hr
  · cases hr
    exact moveToLineStart_keepsDeclaration lang htok
  · cases hr
    exact moveBeforeKeyword_keepsDeclaration lang htok

end

end LineEdit

/-! ## One line of a span -/

/-- One line of a span has a new text, and all others are what they were. Where comments are
    followed from the start of the span on and the line has the keyword that opens a declaration,
    the new line ends with what the old one has from the keyword on. -/
structure Buffer.LineChanged (lang : Language) (span : Span) (b b' : Buffer) (n : Nat)
    (new : Text) : Prop where
  first_le : span.first ≤ n
  le_last : n ≤ span.last
  isLine : Byte.newline ∉ new
  text_eq : b'.text = b.withLine n new
  lineCount_eq : b'.lineCount = b.lineCount
  line_eq : ∀ i : Int, i ≠ n → b'.line i = b.line i
  keepsDeclaration : ∀ at_, lang.findStart? (b.code span.first n) = some at_ →
    b'.line n = new ∧ (b.line n).drop at_.start <:+ new

/-- The step changes at most one line of the span. -/
def Step.ChangesOneLine (lang : Language) (span : Span) (f : Step) : Prop :=
  ∀ w : Work, (f w).work.buffer.text = w.buffer.text ∨
    ∃ n new, w.buffer.LineChanged lang span (f w).work.buffer n new

namespace Step

variable {lang : Language} {span : Span}

theorem changesOneLine_of_buffer_eq {f : Step} (h : ∀ w, (f w).work.buffer = w.buffer) :
    f.ChangesOneLine lang span := fun w => Or.inl (by rw [h w])

/-- A line is set or left alone. -/
theorem setLine_text (scope : Option ToggleScope) {w : Work} {l : CodeLine}
    (hl : w.buffer.text.lines[l.number]? = some l.text) (new : Text) :
    (setLine scope l new w).work.buffer.text = w.buffer.text ∨
      (setLine scope l new w).work.buffer.text = w.buffer.withLine l.number new := by
  by_cases hw : w.writesLeft = some 0
  · left
    unfold setLine Work.replaceRange
    simp only [hw]
    split <;> rfl
  · exact Or.inr (setLine_withLine scope hw hl new).2

/-- Setting a line reshapes no other line. -/
theorem setLine_reshapes_line (scope : Option ToggleScope) {w : Work} {l : CodeLine}
    (hl : w.buffer.text.lines[l.number]? = some l.text) {new : Text} (hnew : Byte.newline ∉ new) :
    w.buffer.Reshapes l.number l.number (setLine scope l new w).work.buffer := by
  -- the step does not look at the code of the line, so the line may be read on its own
  let l' : CodeLine := ⟨l.number, l.text, (Comment.stripLine false l.text).1⟩
  have hl' : l' ∈ w.buffer.codeLines ⟨l.number, l.number⟩ := by
    have htexts : (w.buffer.text.lines.take ((l.number : Int) + 1).toNat).drop l.number
        = [l.text] := by
      obtain ⟨hlt, hget⟩ := List.getElem?_eq_some_iff.1 hl
      rw [show ((l.number : Int) + 1).toNat = l.number + 1 by omega, List.take_add_one, hl,
        List.drop_append_of_le_length (by rw [List.length_take]; omega),
        List.drop_eq_nil_of_le (List.length_take_le _ _)]
      rfl
    rw [Buffer.codeLines_eq, Int.toNat_natCast, htexts, CodeLine.ofLines_cons]
    exact List.mem_cons_self
  exact setLine_reshapes scope hl' hnew

theorem setLine_lineChanged (scope : Option ToggleScope) {w : Work} {l : CodeLine} {new : Text}
    {above below : List CodeLine} (hlines : w.buffer.codeLines span = above ++ l :: below)
    (hnew : Byte.newline ∉ new)
    (hkeeps : ∀ at_, l.start? lang = some at_ → l.text.drop at_.start <:+ new)
    (halign : l.Aligned lang)
    (htext : (setLine scope l new w).work.buffer.text = w.buffer.withLine l.number new) :
    w.buffer.LineChanged lang span (setLine scope l new w).work.buffer l.number new := by
  obtain ⟨hnumber, hl, hlast, -⟩ := Buffer.codeLines_split hlines
  have hreshapes := setLine_reshapes_line scope hl hnew
  refine ⟨by omega, hlast, hnew, htext, hreshapes.lineCount_eq,
    fun i hi => hreshapes.line_eq (by omega), fun at_ hat => ?_⟩
  rw [Buffer.code_eq (Buffer.codeLines_upTo hlines)] at hat
  obtain ⟨front, back, hsplit, -, hback, hne, -⟩ := halign.exists_declaration hat
  have hsuffix := hkeeps at_ hat
  refine ⟨?_, by rwa [Buffer.line_of_lines hl]⟩
  have hend : new.getLast? = l.text.getLast? := by
    obtain ⟨front', rfl⟩ := hback ▸ hsuffix
    rw [hsplit, List.getLast?_append_of_ne_nil _ hne, List.getLast?_append_of_ne_nil _ hne]
  exact Buffer.line_of_lines (Buffer.lines_withLine hl hnew hend htext).1

theorem editLine_changesOneLine {name base : Text} {opts : LanguageOptions}
    (hbuild : Language.build name base opts = .ok lang) (scope : Option ToggleScope)
    {r : LineEdit} (hr : r.OneLine) (hkeeps : r.KeepsDeclaration lang) {otherwise : Step}
    (ho : otherwise.ChangesOneLine lang span) :
    (editLine scope span r otherwise).ChangesOneLine lang span := by
  intro w
  unfold editLine
  split
  · next l new hfirst =>
    obtain ⟨above, below, hlines, hnew⟩ := LineEdit.exists_split_of_first? hfirst
    have hl : l ∈ w.buffer.codeLines span := by simp [hlines]
    have halign := Buffer.aligned hbuild hl
    have hnewline := hr l new (Buffer.newline_notMem_text hl) hnew
    rcases setLine_text scope (Buffer.codeLines_split hlines).2.1 new with htext | htext
    · exact Or.inl htext
    · exact Or.inr ⟨_, _, setLine_lineChanged scope hlines hnewline
        (fun at_ hat => hkeeps l new at_ halign hnew hat) halign htext⟩
  · exact ho w

end Step

namespace Editor

open Step (changesOneLine_of_buffer_eq editLine_changesOneLine)

/-- The primitive edits of a span. -/
inductive Primitive where
  | changeAccess (kind : Kind) (vis : Text)
  | addToken (tok : Token)
  | removeToken (tok : Token)
  | fixOrder
  | fixPlacement (m : Modifier)

namespace Primitive

/-- The step that the primitive edit is. -/
def step (ed : Editor) (span : Span) : Primitive → Step
  | .changeAccess kind vis => ed.changeAccess span kind vis
  | .addToken tok => ed.addToken span tok
  | .removeToken tok => ed.removeToken span tok
  | .fixOrder => ed.fixOrder span
  | .fixPlacement m => ed.fixPlacement m span

/-- A visibility is on one line, and a token is one of the language. -/
def IsFor (lang : Language) : Primitive → Prop
  | .changeAccess _ vis => Byte.newline ∉ vis
  | .addToken tok | .removeToken tok => tok ∈ lang.tokens
  | .fixOrder | .fixPlacement _ => True

end Primitive

/-- **Primitive edits change at most one line of their span, and none of it at or behind the keyword
    that opens the declaration.** This holds for every table that can be built, every buffer, span
    and primitive edit, at whatever point the owner of the buffer stops accepting replacements. -/
theorem primitive_keepsDeclaration {name base : Text} {opts : LanguageOptions} {lang : Language}
    (hbuild : Language.build name base opts = .ok lang) (scope : Option ToggleScope) (span : Span)
    {p : Primitive} (hp : p.IsFor lang) (w : Work) :
    (p.step ⟨lang, scope⟩ span w).work.buffer.text = w.buffer.text ∨
      ∃ n new, w.buffer.LineChanged lang span (p.step ⟨lang, scope⟩ span w).work.buffer n new := by
  revert w
  show (p.step ⟨lang, scope⟩ span).ChangesOneLine lang span
  have hskip : Step.skip.ChangesOneLine lang span := changesOneLine_of_buffer_eq fun _ => rfl
  cases p with
  | changeAccess kind vis =>
    have hkeyword := lang.newline_notMem_visibilityKeyword kind hp
    refine editLine_changesOneLine hbuild scope (LineEdit.replaceVisibility_oneLine lang hkeyword)
      (LineEdit.replaceVisibility_keepsDeclaration lang _) ?_
    split
    · exact hskip
    · exact editLine_changesOneLine hbuild scope (LineEdit.insertVisibility_oneLine lang hkeyword)
        (LineEdit.insertVisibility_keepsDeclaration lang _) hskip
  | addToken tok =>
    have hkeyword := Language.newline_notMem_keyword hbuild hp
    exact editLine_changesOneLine hbuild scope (LineEdit.addToken_oneLine lang hkeyword)
      (LineEdit.addToken_keepsDeclaration lang tok) hskip
  | removeToken tok =>
    exact editLine_changesOneLine hbuild scope (LineEdit.removeToken_oneLine lang tok)
      (LineEdit.removeToken_keepsDeclaration lang hp) hskip
  | fixOrder =>
    exact editLine_changesOneLine hbuild scope (LineEdit.orderModifiers_oneLine lang)
      (LineEdit.orderModifiers_keepsDeclaration lang) hskip
  | fixPlacement m =>
    show ((⟨lang, scope⟩ : Editor).fixPlacement m span).ChangesOneLine lang span
    unfold fixPlacement
    split
    · exact hskip
    · next tok htok =>
      split
      · exact hskip
      · next r hr =>
        have hmem : tok ∈ lang.tokens := List.mem_of_find?_eq_some htok
        exact editLine_changesOneLine hbuild scope
          (LineEdit.place?_oneLine lang (Language.newline_notMem_keyword hbuild hmem) hr)
          (LineEdit.place?_keepsDeclaration lang hmem hr)
          (changesOneLine_of_buffer_eq fun _ => rfl)

/-- A member of protected visibility, behind a comment that begins above it. -/
def protectedWork : Work :=
  { buffer := .ofText (utf8 "/* public\r\n */ protected  static var x\r\n// b") }

/-- The visibility that goes without saying is dropped on the line of the member, before its
    keyword. -/
theorem primitive_keepsDeclaration_dropped :
    let lang := Language.actionScript3 {}
    let p : Primitive := .changeAccess .field (utf8 "internal")
    let b := protectedWork.buffer
    let b' := (p.step ⟨lang, none⟩ ⟨0, 2⟩ protectedWork).work.buffer
    Language.build [] (utf8 "as3") {} = .ok lang ∧ p.IsFor lang ∧
      lang.findStart? (b.code 0 1) = some ⟨22, 25, 26⟩ ∧
      b'.text = utf8 "/* public\r\n */ static var x\r\n// b" ∧
      (b.line 1).drop 22 <:+ b'.line 1 ∧ b'.line 0 = b.line 0 ∧ b'.line 2 = b.line 2 := by
  intro lang p b b'
  have hbuild : Language.build [] (utf8 "as3") {} = .ok lang := rfl
  have hp : p.IsFor lang := (by decide : Byte.newline ∉ utf8 "internal")
  have hstart : lang.findStart? (b.code 0 1) = some ⟨22, 25, 26⟩ := by decide
  have hchanged : b'.line 1 ≠ b.line 1 := by decide
  refine ⟨hbuild, hp, hstart, by decide, ?_⟩
  rcases primitive_keepsDeclaration hbuild none ⟨0, 2⟩ hp protectedWork with hsame | ⟨n, new, h⟩
  · exact absurd (by rw [Buffer.line_eq, Buffer.line_eq, hsame]) hchanged
  · -- the line that differs is the one that has been set
    have hn : (n : Int) = 1 := by
      by_contra hne
      exact hchanged (h.line_eq 1 (Ne.symm hne))
    obtain ⟨hline, hsuffix⟩ := h.keepsDeclaration ⟨22, 25, 26⟩ (by rw [hn]; exact hstart)
    rw [← hline, hn] at hsuffix
    exact ⟨hsuffix, h.line_eq 0 (by omega), h.line_eq 2 (by omega)⟩

end Editor

end ModifierToggle
