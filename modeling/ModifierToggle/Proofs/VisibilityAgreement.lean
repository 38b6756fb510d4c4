import ModifierToggle.Proofs.CheckedLineEdits

set_option autoImplicit false

/-! # The visibility that is reported and the one that is replaced

Two searches look for the visibility of a declaration. Inspection looks at the header line, up to
the keyword. Changing the visibility looks at all lines of the header span, and replaces the topmost
visibility, on its line the leftmost (`Editor.changeAccess_of_some`). The span ends at the header
line, so the two can only differ over a visibility on a line above it, and
`Editor.changeAccess_replaces_reported_iff` says when they do. -/

namespace ModifierToggle

/-! ## The first visibility of some lines -/

/-- The first visibility in what is searched of some lines: the line it is on and its extent. -/
def Language.firstVisibility? (lang : Language) (lines : List CodeLine) :
    Option (CodeLine × Keyword.Occurrence) :=
  lines.findSome? fun l => (lang.findVisibility? (l.searchable lang)).map fun at_ => (l, at_)

/-- The first visibility of some lines, as it is spelled there. -/
def Language.spelledVisibility? (lang : Language) (lines : List CodeLine) : Option Text :=
  (lang.firstVisibility? lines).map fun (l, at_) => (l.searchable lang).slice at_.start at_.stop

namespace Language

variable {lang : Language}

theorem firstVisibility?_eq_none {lines : List CodeLine}
    (h : lang.firstVisibility? lines = none) :
    ∀ l ∈ lines, lang.findVisibility? (l.searchable lang) = none := by
  intro l hl
  simpa using List.findSome?_eq_none_iff.1 h l hl

theorem firstVisibility?_split {lines : List CodeLine} {l : CodeLine} {at_ : Keyword.Occurrence}
    (h : lang.firstVisibility? lines = some (l, at_)) :
    ∃ above below, lines = above ++ l :: below ∧
      (∀ l' ∈ above, lang.findVisibility? (l'.searchable lang) = none) ∧
      lang.findVisibility? (l.searchable lang) = some at_ := by
  obtain ⟨above, l', below, hlines, hl', habove⟩ := List.findSome?_eq_some_iff.1 h
  obtain ⟨at_', hat, heq⟩ := Option.map_eq_some_iff.1 hl'
  obtain ⟨rfl, rfl⟩ := Prod.mk.inj heq
  refine ⟨above, below, hlines, fun l'' hl'' => ?_, hat⟩
  simpa using habove l'' hl''

/-- The last line counts where there is no visibility above it. -/
theorem firstVisibility?_concat {above : List CodeLine}
    (h : ∀ l ∈ above, lang.findVisibility? (l.searchable lang) = none) (l : CodeLine) :
    lang.firstVisibility? (above ++ [l])
      = (lang.findVisibility? (l.searchable lang)).map fun at_ => (l, at_) := by
  have hnone : above.findSome? (fun l => (lang.findVisibility? (l.searchable lang)).map
      fun at_ => (l, at_)) = none := by
    rw [List.findSome?_eq_none_iff]
    intro l' hl'
    rw [h l' hl', Option.map_none]
  rw [firstVisibility?, List.findSome?_append, hnone, Option.none_or, List.findSome?_cons]
  cases lang.findVisibility? (l.searchable lang) <;> rfl

/-- The lines further up come first. -/
theorem spelledVisibility?_append (above below : List CodeLine) :
    lang.spelledVisibility? (above ++ below)
      = (lang.spelledVisibility? above).or (lang.spelledVisibility? below) := by
  rw [spelledVisibility?, firstVisibility?, List.findSome?_append, Option.map_or]
  rfl

theorem spelledVisibility?_singleton (l : CodeLine) :
    lang.spelledVisibility? [l] = (lang.findVisibility? (l.searchable lang)).map fun at_ =>
      (l.searchable lang).slice at_.start at_.stop := by
  rw [spelledVisibility?, ← List.nil_append [l], firstVisibility?_concat (by simp), Option.map_map]
  rfl

end Language

/-- Nothing is found in an empty text. -/
theorem Keyword.Pattern.find?_nil (p : Keyword.Pattern) : p.find? [] = none := by
  rw [find?]
  split <;> rfl

/-- A line with a visibility is not empty. -/
theorem CodeLine.text_ne_nil {b : Buffer} {span : Span} {lang : Language} {l : CodeLine}
    (hl : l ∈ b.codeLines span) {at_ : Keyword.Occurrence}
    (hat : lang.findVisibility? (l.searchable lang) = some at_) : l.text ≠ [] := by
  intro hnil
  have hcode : l.code.length ≤ 0 := by simpa [hnil] using Buffer.length_code_le hl
  obtain ⟨rest, hrest⟩ := l.searchable_append lang
  have hsearchable : l.searchable lang = [] := by
    rw [List.eq_nil_of_length_eq_zero (Nat.le_zero.1 hcode)] at hrest
    exact (List.append_eq_nil_iff.1 hrest.symm).1
  rw [hsearchable, Language.findVisibility?, Keyword.Pattern.find?_nil] at hat
  cases hat

/-! ## What inspection reports -/

namespace Buffer

variable {b : Buffer} {lang : Language}

/-- The lines of a header span above the header line. -/
theorem codeLines_above {first : Int} {above : List CodeLine} {l : CodeLine}
    (h : b.codeLines ⟨first, l.number⟩ = above ++ [l]) :
    b.codeLines ⟨first, (l.number : Int) - 1⟩ = above := by
  have hnumber : l.number = first.toNat + above.length := (codeLines_split h).1
  have hle : (l.number : Int) - 1 ≤ (⟨first, l.number⟩ : Span).last := Int.sub_le_self _ (by decide)
  have htake : b.codeLines ⟨first, (l.number : Int) - 1⟩
      = (b.codeLines ⟨first, l.number⟩).take (((l.number : Int) - 1 + 1).toNat - first.toNat) :=
    codeLines_take hle
  have hcount : ((l.number : Int) - 1 + 1).toNat - first.toNat = above.length := by omega
  rw [htake, h, hcount, List.take_left]

theorem inspect?_eq_some {found : Found} {s : Inspection} (hs : b.inspect? lang found = some s) :
    s.found = found ∧ s.kind = found.kind ∧
      s.visibility = b.visibilityOf lang s.kind s.target s.header := by
  unfold inspect? at hs
  split at hs
  · cases hs
  · obtain ⟨header, -, rfl⟩ := Option.map_eq_some_iff.1 hs
    exact ⟨rfl, rfl, rfl⟩

/-- Without a word from the engine, inspection reports what is spelled on the header line, or else
    what goes without saying. -/
theorem visibility_of_inspect? {found : Found} {s : Inspection}
    (hs : b.inspect? lang found = some s) (haccess : found.target.visibility = [])
    {above : List CodeLine} {l : CodeLine} {at_ : Keyword.Occurrence}
    (hlines : b.codeLines s.span = above ++ [l]) (hat : l.start? lang = some at_)
    (hheader : s.header = ⟨l.number, at_.start, at_.next⟩) :
    s.visibility = (lang.spelledVisibility? [l]).getD (lang.implicitVisibility s.kind) := by
  obtain ⟨hfound, -, hvisibility⟩ := inspect?_eq_some hs
  have htarget : s.target.visibility = [] := by rw [Inspection.target, hfound, haccess]
  have hbefore : (b.code s.target.lineFrom s.header.line).take s.header.start
      = l.searchable lang := by
    rw [Inspection.span, hheader] at hlines
    have hcode : b.code s.target.lineFrom l.number = l.code := code_eq hlines
    rw [hheader, CodeLine.searchable, hat]
    simp only [hcode]
  rw [hvisibility, visibilityOf, htarget, List.isEmpty_nil, if_pos rfl, hbefore,
    Language.spelledVisibility?_singleton]
  simp only
  cases lang.findVisibility? (l.searchable lang) <;> rfl

end Buffer

/-! ## What is replaced -/

/-- A new leading keyword goes to the first byte of the line that a modifier can start with, and
    there is one up to the keyword of the declaration. -/
theorem CodeLine.Aligned.firstModifierByte_split {lang : Language} {l : CodeLine}
    {at_ : Keyword.Occurrence} (h : l.Aligned lang) (hat : l.start? lang = some at_) :
    ∃ u c v, l.text = u ++ c :: v ∧ u.length = LineEdit.firstModifierByte l.text ∧
      (∀ b ∈ u, Byte.startsModifier b = false) ∧ Byte.startsModifier c = true ∧
      u.length ≤ at_.start := by
  obtain ⟨-, a, k, y, htext, ha, hk⟩ := h.start at_ hat
  obtain ⟨d, k, rfl⟩ := List.exists_cons_of_ne_nil (Text.ne_nil_of_isHeaderWord hk)
  have hd := Text.startsModifier_head hk
  have hdmem : d ∈ l.text := by simp [htext]
  obtain ⟨c, hfind⟩ := Option.isSome_iff_exists.1 (List.find?_isSome.2 ⟨d, hdmem, hd⟩)
  obtain ⟨hc, u, v, hsplit, hu⟩ := List.find?_eq_some_iff_append.1 hfind
  have hnone : ∀ b ∈ u, Byte.startsModifier b = false := fun b hb => by simpa using hu b hb
  refine ⟨u, c, v, hsplit, ?_, hnone, hc, ?_⟩
  · rw [LineEdit.firstModifierByte, hsplit, List.findIdx?_append,
      List.findIdx?_eq_none_iff.2 hnone, List.findIdx?_cons, if_pos hc]
    simp
  · -- the keyword does not start inside `u`
    rw [htext, List.append_eq_append_iff] at hsplit
    rcases hsplit with ⟨as, rfl, hrest⟩ | ⟨bs, rfl, -⟩
    · cases as with
      | nil => simp [ha]
      | cons e as =>
        obtain rfl : d = e := (List.cons.inj hrest).1
        rw [hnone d (by simp)] at hd
        cases hd
    · rw [← ha, List.length_append]
      omega

/-- A keyword with a space behind it; nothing for a visibility that is not spelled out. -/
def Text.spelledOut (keyword : Text) : Text :=
  if keyword.isEmpty then [] else keyword ++ [Byte.space]

theorem LineEdit.replaceVisibility_eq_some {lang : Language} {l : CodeLine}
    {at_ : Keyword.Occurrence} (hat : lang.findVisibility? (l.searchable lang) = some at_)
    (keyword : Text) :
    replaceVisibility lang keyword l = some (l.text.take at_.start ++ keyword.spelledOut
      ++ l.text.drop (l.text.skipBlanks at_.stop)) := by
  rw [replaceVisibility, hat, Option.map_some, Text.spelledOut]
  cases keyword <;> simp

/-- The offsets of a line are offsets of the text around it. -/
theorem Text.take_drop_line {t before x after : Text} (ht : t = before ++ x ++ after) {i j : Nat}
    (hi : i ≤ x.length) (hj : j ≤ x.length) :
    t.take (before.length + i) = before ++ x.take i ∧
      t.drop (before.length + j) = x.drop j ++ after := by
  rw [ht, List.append_assoc]
  constructor
  · rw [List.take_length_add_append, List.take_append_of_le_length hi]
  · rw [List.drop_length_add_append, List.drop_append_of_le_length hj]

namespace Editor

variable {lang : Language} {scope : Option ToggleScope} {span : Span} {w : Work}

/-- **The first visibility of a span is the one that is replaced**, with the blanks behind it. -/
theorem changeAccess_of_some (hw : w.writesLeft ≠ some 0) {l : CodeLine} {at_ : Keyword.Occurrence}
    (hfirst : lang.firstVisibility? (w.buffer.codeLines span) = some (l, at_))
    (halign : l.Aligned lang) (kind : Kind) (vis : Text) :
    let o := (⟨lang, scope⟩ : Editor).changeAccess span kind vis w
    o.error = none ∧
      o.work.buffer.text
        = w.buffer.text.take (w.buffer.lineStart l.number + at_.start)
          ++ (lang.visibilityKeyword kind vis).spelledOut
          ++ w.buffer.text.drop (w.buffer.lineStart l.number + l.text.skipBlanks at_.stop) := by
  intro o
  obtain ⟨above, below, hlines, habove, hat⟩ := Language.firstVisibility?_split hfirst
  have hl : l ∈ w.buffer.codeLines span := by simp [hlines]
  obtain ⟨before, after, htext, hstart, hset⟩ := Buffer.exists_setLine hl
  let new := l.text.take at_.start ++ (lang.visibilityKeyword kind vis).spelledOut
    ++ l.text.drop (l.text.skipBlanks at_.stop)
  have htaken : (LineEdit.replaceVisibility lang (lang.visibilityKeyword kind vis)).first?
      (w.buffer.codeLines span) = some (l, new) := by
    rw [hlines]
    refine LineEdit.first?_split (fun l' hl' => ?_) (CodeLine.text_ne_nil hl hat)
      (LineEdit.replaceVisibility_eq_some hat _)
    rw [LineEdit.replaceVisibility, habove l' hl', Option.map_none]
  have ho : o = Step.setLine scope l new w := by
    show changeAccess _ _ _ _ _ = _
    rw [changeAccess, Step.editLine, htaken]
  obtain ⟨herror, hnew⟩ := hset scope new w rfl hw
  obtain ⟨hle, hstop⟩ := halign.visibility at_ hat
  have hsearchable := halign.searchable_le
  obtain ⟨htake, hdrop⟩ := Text.take_drop_line htext (i := at_.start)
    (j := l.text.skipBlanks at_.stop) (by omega) (Checked.skipBlanks_le (by omega))
  refine ⟨ho ▸ herror, ?_⟩
  rw [ho, hnew, hstart, htake, hdrop]
  simp only [new, List.append_assoc]

/-- Where a span shows no visibility, the keyword goes into its header line, unless the visibility
    goes without saying. -/
theorem changeAccess_of_none (hnone : lang.firstVisibility? (w.buffer.codeLines span) = none)
    {above : List CodeLine} {l : CodeLine} {at_ : Keyword.Occurrence}
    (hlines : w.buffer.codeLines span = above ++ [l])
    (habove : ∀ l' ∈ above, l'.start? lang = none) (hat : l.start? lang = some at_)
    (hne : l.text ≠ []) (kind : Kind) (vis : Text) :
    (⟨lang, scope⟩ : Editor).changeAccess span kind vis w
      = if (lang.visibilityKeyword kind vis).isEmpty then { work := w }
        else Step.setLine scope l (LineEdit.insertAt l.text (lang.visibilityKeyword kind vis)
          (LineEdit.firstModifierByte l.text)) w := by
  have hmissing := Language.firstVisibility?_eq_none hnone
  rw [changeAccess, Step.editLine, LineEdit.first?_eq_none fun l' hl' => by
    rw [LineEdit.replaceVisibility, hmissing l' hl', Option.map_none]]
  simp only
  split
  · rfl
  · have htaken : (LineEdit.insertVisibility lang (lang.visibilityKeyword kind vis)).first?
        (above ++ [l]) = some (l, LineEdit.insertAt l.text (lang.visibilityKeyword kind vis)
          (LineEdit.firstModifierByte l.text)) := by
      refine LineEdit.first?_split (fun l' hl' => ?_) hne ?_
      · rw [LineEdit.insertVisibility, habove l' hl', Option.map_none]
      · rw [LineEdit.insertVisibility, hat, Option.map_some]
    rw [Step.editLine, hlines, htaken]

/-- Where a span shows no visibility, what changes is that the new one stands before the keyword of
    the declaration. -/
theorem changeAccess_text_of_none (hw : w.writesLeft ≠ some 0)
    (hnone : lang.firstVisibility? (w.buffer.codeLines span) = none)
    {above : List CodeLine} {l : CodeLine} {at_ : Keyword.Occurrence}
    (hlines : w.buffer.codeLines span = above ++ [l])
    (habove : ∀ l' ∈ above, l'.start? lang = none) (hat : l.start? lang = some at_)
    (halign : l.Aligned lang) (kind : Kind) (vis : Text) :
    let o := (⟨lang, scope⟩ : Editor).changeAccess span kind vis w
    o.error = none ∧ ∃ u v, w.buffer.text = u ++ v ∧
      w.buffer.lineStart l.number ≤ u.length ∧
      u.length ≤ w.buffer.lineStart l.number + at_.start ∧
      o.work.buffer.text = u ++ (lang.visibilityKeyword kind vis).spelledOut ++ v := by
  intro o
  have hl : l ∈ w.buffer.codeLines span := by simp [hlines]
  obtain ⟨x, c, y, htext, hx, -, -, hle⟩ := halign.firstModifierByte_split hat
  have hne : l.text ≠ [] := by simp [htext]
  have ho : o = _ := changeAccess_of_none hnone hlines habove hat hne kind vis
  obtain ⟨before, after, hbuffer, hstart, hset⟩ := Buffer.exists_setLine hl
  have hparts : w.buffer.text = before ++ x ++ (c :: y ++ after) := by
    rw [hbuffer, htext]
    simp only [List.append_assoc]
  rw [ho, hstart]
  split
  · next hempty =>
    refine ⟨rfl, _, _, hparts, ?_, ?_, ?_⟩
    · simp
    · simpa using hle
    · simpa [Text.spelledOut, hempty] using hparts
  · next hkeyword =>
    obtain ⟨herror, hnew⟩ := hset scope (LineEdit.insertAt l.text (lang.visibilityKeyword kind vis)
      (LineEdit.firstModifierByte l.text)) w rfl hw
    refine ⟨herror, _, _, hparts, ?_, ?_, ?_⟩
    · simp
    · simpa using hle
    · rw [hnew, ← hx, htext, LineEdit.insertAt_length, Text.spelledOut, if_neg hkeyword]
      simp only [List.append_assoc]

/-- **The reported visibility is the one that is replaced, unless one stands above the header.**
    Take a table that can be built and a declaration whose visibility the engine leaves open.
    Changing its visibility does not fail. It replaces the topmost visibility of the header span,
    and on its line the leftmost, with the blanks behind it. If there is none, it takes nothing
    away, and what it inserts stands on the header line before the keyword. The visibility that
    inspection reports is the one replaced, or the implicit one if none is replaced, exactly if the
    topmost visibility above the header line, if there is one, is the reported one. If there is none
    above, the reported visibility is the implicit one exactly if none is replaced or the one
    replaced spells it out. -/
theorem changeAccess_replaces_reported_iff {name base : Text} {opts : LanguageOptions}
    {lang : Language} (hbuild : Language.build name base opts = .ok lang)
    (scope : Option ToggleScope) {found : Found} {s : Inspection} {w : Work}
    (hw : w.writesLeft ≠ some 0) (hs : w.buffer.inspect? lang found = some s)
    (haccess : found.target.visibility = []) :
    let b := w.buffer
    let lines := b.codeLines s.span
    let above := b.codeLines ⟨s.span.first, s.header.line - 1⟩
    let implicit := lang.implicitVisibility s.kind
    (∀ vis,
      let o := (⟨lang, scope⟩ : Editor).changeAccess s.span s.kind vis w
      let new := (lang.visibilityKeyword s.kind vis).spelledOut
      o.error = none ∧
      (∀ l at_, lang.firstVisibility? lines = some (l, at_) →
        o.work.buffer.text = b.text.take (b.lineStart l.number + at_.start) ++ new
          ++ b.text.drop (b.lineStart l.number + l.text.skipBlanks at_.stop)) ∧
      (lang.firstVisibility? lines = none → ∃ u v, b.text = u ++ v ∧
        b.lineStart s.header.line ≤ u.length ∧
        u.length ≤ b.lineStart s.header.line + s.header.start ∧
        o.work.buffer.text = u ++ new ++ v)) ∧
    (s.visibility = (lang.spelledVisibility? lines).getD implicit
      ↔ ∀ v, lang.spelledVisibility? above = some v → s.visibility = v) ∧
    (lang.spelledVisibility? above = none →
      (s.visibility = implicit
        ↔ lang.spelledVisibility? lines = none ∨
          lang.spelledVisibility? lines = some implicit)) := by
  intro b lines above implicit
  obtain ⟨upper, l, at_, hlines, hupper, hat, hheader⟩ :=
    Buffer.findHeader?_split (Buffer.findHeader?_of_inspect? hs)
  have hspelled : s.visibility = (lang.spelledVisibility? [l]).getD implicit :=
    Buffer.visibility_of_inspect? hs haccess hlines hat hheader
  have habove : above = upper := by
    have hlines' := hlines
    rw [hheader] at hlines'
    show b.codeLines ⟨s.target.span.first, s.header.line - 1⟩ = upper
    rw [hheader]
    exact Buffer.codeLines_above hlines'
  have hsplit : lang.spelledVisibility? lines
      = (lang.spelledVisibility? above).or (lang.spelledVisibility? [l]) := by
    rw [habove, ← Language.spelledVisibility?_append]
    exact congrArg _ hlines
  refine ⟨fun vis => ?_, ?_, fun hnone => ?_⟩
  · intro o new
    cases hfirst : lang.firstVisibility? lines with
    | some place =>
      obtain ⟨l', at_'⟩ := place
      obtain ⟨above', below', hlines', -⟩ := Language.firstVisibility?_split hfirst
      have hl' : l' ∈ b.codeLines s.span := by
        rw [show b.codeLines s.span = _ from hlines']
        simp
      obtain ⟨herror, htext⟩ : o.error = none ∧ _ :=
        changeAccess_of_some hw hfirst (Buffer.aligned hbuild hl') s.kind vis
      refine ⟨herror, ?_, fun h => (nomatch h)⟩
      intro l'' at_'' h
      obtain ⟨rfl, rfl⟩ := Prod.mk.inj (Option.some.inj h)
      exact htext
    | none =>
      have hl : l ∈ b.codeLines ⟨s.target.span.first, s.header.line⟩ := by simp [b, hlines]
      obtain ⟨herror, htext⟩ : o.error = none ∧ _ := changeAccess_text_of_none hw hfirst hlines
        hupper hat (Buffer.aligned hbuild hl) s.kind vis
      refine ⟨herror, fun _ _ h => (nomatch h), fun _ => ?_⟩
      rw [hheader]
      exact htext
  · rw [hsplit]
    cases lang.spelledVisibility? above with
    | none => simpa using hspelled
    | some v => simp
  · rw [hsplit, hnone, Option.none_or, hspelled]
    cases lang.spelledVisibility? [l] with
    | none => simp
    | some v => simp

/-- A method without a visibility from the engine, whose header takes two lines. -/
def splitMethod : Found where
  enclosing := { declaration := { name := utf8 "A", lineFrom := 0, lineTo := 1 } }
  member := some { name := utf8 "f", lineFrom := 0, lineTo := 1, flags := .function }

/-- The method with a visibility before its keyword, and one in a comment above. -/
def remarkedWork : Work :=
  { buffer := .ofText (utf8 "static /* private */\n public\tfunction f() \x7b\x7d") }

/-- A visibility in a comment is none, so the one before the keyword is reported and replaced. -/
theorem changeAccess_replaces_reported_commented :
    Language.build [] (utf8 "haxe") {} = .ok (Language.haxe {}) ∧
    ∃ s, remarkedWork.buffer.inspect? (Language.haxe {}) splitMethod = some s ∧
      s.visibility = utf8 "public" ∧
      ((Language.haxe {}).spelledVisibility? (remarkedWork.buffer.codeLines s.span)).getD
        ((Language.haxe {}).implicitVisibility s.kind) = utf8 "public" ∧
      let o := changeAccess ⟨Language.haxe {}, none⟩ s.span s.kind (utf8 "private") remarkedWork
      o.error = none ∧
      o.work.buffer.text = utf8 "static /* private */\n function f() \x7b\x7d" := by
  have hbuild : Language.build [] (utf8 "haxe") {} = .ok (Language.haxe {}) := rfl
  have hedits : (remarkedWork.buffer.inspect? (Language.haxe {}) splitMethod).any (fun s =>
      s.visibility == utf8 "public" &&
      ((Language.haxe {}).spelledVisibility?
        (remarkedWork.buffer.codeLines ⟨s.span.first, s.header.line - 1⟩)).isNone &&
      (changeAccess ⟨Language.haxe {}, none⟩ s.span s.kind (utf8 "private")
        remarkedWork).work.buffer.text
          == utf8 "static /* private */\n function f() \x7b\x7d") = true := by decide
  obtain ⟨s, hs, hedits⟩ := (Option.any_eq_true _ _).1 hedits
  simp only [Bool.and_eq_true, beq_iff_eq, Option.isNone_iff_eq_none] at hedits
  obtain ⟨⟨hpublic, habove⟩, htext⟩ := hedits
  obtain ⟨heffect, hagree, -⟩ :=
    changeAccess_replaces_reported_iff hbuild none (by decide) hs rfl
  have hsame := hagree.2 fun v hv => by
    rw [habove] at hv
    cases hv
  exact ⟨hbuild, s, hs, hpublic, hsame.symm.trans hpublic, (heffect _).1, htext⟩

/-- A visibility on a line of its own above the keyword is the one that is replaced, but it is not
    the one that is reported. -/
theorem changeAccess_replaces_unreported :
    let w : Work := { buffer := .ofText (utf8 "public\nfunction f() \x7b\x7d") }
    (w.buffer.inspect? (Language.haxe {}) splitMethod).any (fun s =>
      s.visibility == utf8 "private" &&
      (Language.haxe {}).spelledVisibility? (w.buffer.codeLines s.span) == some (utf8 "public") &&
      (changeAccess ⟨Language.haxe {}, none⟩ s.span s.kind (utf8 "private") w).work.buffer.text
        == utf8 "\nfunction f() \x7b\x7d") = true := by
  decide

end Editor

end ModifierToggle
