import ModifierToggle.Proofs.HeaderWords
import ModifierToggle.Proofs.LineFrame
import ModifierToggle.Proofs.Pieces
import ModifierToggle.Proofs.Tables

set_option autoImplicit false

/-! # Toggles stay inside the header span

Every line edit makes one line of one line: it puts together parts of the line, keywords and blanks,
and none of them has a newline (`LineEdit.OneLine`). So each step of the editor reshapes the span it
is given and nothing else, whether or not its replacement is accepted, and so does applying a toggle
as a whole (`Editor.apply_staysInSpan`). -/

namespace ModifierToggle

/-! ## Line edits give one line -/

/-- A line edit that gives a line without newlines. -/
def LineEdit.OneLine (r : LineEdit) : Prop :=
  ∀ l new, Byte.newline ∉ l.text → r l = some new → Byte.newline ∉ new

namespace LineEdit

theorem mem_of_mem_cut {c : UInt8} {text : Text} {i j : Nat} (h : c ∈ cut text i j) : c ∈ text := by
  have hparts : ∀ m n : Nat, c ∈ text.take m ++ text.drop n → c ∈ text := by
    intro m n hmem
    exact (List.mem_append.1 hmem).elim List.mem_of_mem_take List.mem_of_mem_drop
  unfold cut at h
  split at h
  · exact hparts _ _ h
  · split at h <;> exact hparts _ _ h

theorem newline_notMem_insertAt {text keyword : Text} (ht : Byte.newline ∉ text)
    (hk : Byte.newline ∉ keyword) (i : Nat) : Byte.newline ∉ insertAt text keyword i := by
  intro hmem
  simp only [insertAt, List.mem_append, List.mem_singleton] at hmem
  rcases hmem with ((hmem | hmem) | hmem) | hmem
  · exact ht (List.mem_of_mem_take hmem)
  · exact hk hmem
  · exact absurd hmem (by decide)
  · exact ht (List.mem_of_mem_drop hmem)

section

variable (lang : Language)

theorem replaceVisibility_oneLine {keyword : Text} (hk : Byte.newline ∉ keyword) :
    (replaceVisibility lang keyword).OneLine := by
  intro l new hl hnew
  obtain ⟨at_, -, rfl⟩ := Option.map_eq_some_iff.1 hnew
  intro hmem
  split at hmem <;>
    simp only [List.mem_append, List.mem_singleton] at hmem
  · exact hl (hmem.elim List.mem_of_mem_take List.mem_of_mem_drop)
  · rcases hmem with ((hmem | hmem) | hmem) | hmem
    · exact hl (List.mem_of_mem_take hmem)
    · exact hk hmem
    · exact absurd hmem (by decide)
    · exact hl (List.mem_of_mem_drop hmem)

theorem insertVisibility_oneLine {keyword : Text} (hk : Byte.newline ∉ keyword) :
    (insertVisibility lang keyword).OneLine := by
  intro l new hl hnew
  obtain ⟨at_, -, rfl⟩ := Option.map_eq_some_iff.1 hnew
  exact newline_notMem_insertAt hl hk _

theorem removeToken_oneLine (tok : Token) : (removeToken lang tok).OneLine := by
  intro l new hl hnew
  obtain ⟨at_, -, rfl⟩ := Option.map_eq_some_iff.1 hnew
  exact fun hmem => hl (mem_of_mem_cut hmem)

theorem mem_of_mem_join {c : UInt8} {ws : List Text} (h : c ∈ Text.join [Byte.space] ws) :
    c = Byte.space ∨ ∃ w ∈ ws, c ∈ w := by
  induction ws with
  | nil => cases h
  | cons w ws ih =>
    cases ws with
    | nil => exact Or.inr ⟨w, List.mem_cons_self, h⟩
    | cons next rest =>
      rw [Text.join, List.mem_append, List.mem_append, List.mem_singleton] at h
      rcases h with (h | h) | h
      · exact Or.inr ⟨w, List.mem_cons_self, h⟩
      · exact Or.inl h
      · rcases ih h with h | ⟨v, hv, hc⟩
        · exact Or.inl h
        · exact Or.inr ⟨v, List.mem_cons_of_mem _ hv, hc⟩

theorem orderModifiers_oneLine : (orderModifiers lang).OneLine := by
  intro l new hl hnew
  obtain ⟨at_, -, rfl⟩ := Option.map_eq_some_iff.1 hnew
  simp only
  split
  · exact hl
  · next ordered hordered =>
    -- the words are words of the line
    have hrun : ∀ i, Byte.newline ∉ l.text.slice i at_.start := fun i hmem =>
      hl (List.mem_of_mem_take (List.mem_of_mem_drop hmem))
    have hwords : ∀ w ∈ ordered, Byte.newline ∉ w := by
      intro w hw hmem
      have hperm := HeaderWords.ordered_perm lang
        (l.text.slice (modifierRunStart l.text at_.start) at_.start).words
      rw [HeaderWords.ordered, hordered] at hperm
      exact hrun _ (Text.mem_of_mem_words (hperm.subset hw) hmem)
    intro hmem
    simp only [List.mem_append] at hmem
    rcases hmem with ((hmem | hmem) | hmem) | hmem
    · exact hl (List.mem_of_mem_take hmem)
    · rcases mem_of_mem_join hmem with hspace | ⟨w, hw, hmem⟩
      · exact absurd hspace (by decide)
      · exact hwords w hw hmem
    · exact hrun _ (List.mem_of_mem_drop hmem)
    · exact hl (List.mem_of_mem_drop hmem)

section

variable {tok : Token} (hk : Byte.newline ∉ tok.keyword)

include hk

theorem addToken_oneLine : (addToken lang tok).OneLine := by
  intro l new hl hnew
  obtain ⟨at_, -, rfl⟩ := Option.map_eq_some_iff.1 hnew
  exact newline_notMem_insertAt hl hk _

theorem moveToLineStart_oneLine : (moveToLineStart lang tok).OneLine := by
  intro l new hl hnew
  obtain ⟨at_, -, rfl⟩ := Option.map_eq_some_iff.1 hnew
  split
  · exact hl
  · exact newline_notMem_insertAt (fun hmem => hl (mem_of_mem_cut hmem)) hk _

theorem moveBeforeKeyword_oneLine : (moveBeforeKeyword lang tok).OneLine := by
  intro l new hl hnew
  obtain ⟨at_, -, rfl⟩ := Option.map_eq_some_iff.1 hnew
  split
  · exact hl
  · split
    · exact hl
    · exact newline_notMem_insertAt (fun hmem => hl (mem_of_mem_cut hmem)) hk _

theorem place?_oneLine {r : LineEdit} (hr : place? lang tok = some r) : r.OneLine := by
  unfold place? at hr
  split at hr
  · cases hr
  · cases hr
    exact moveToLineStart_oneLine lang hk
  · cases hr
    exact moveBeforeKeyword_oneLine lang hk

end

end

end LineEdit

/-! ## Keywords are on one line -/

namespace Language

theorem newline_notMem_visibilityKeyword (lang : Language) (kind : Kind) {vis : Text}
    (hvis : Byte.newline ∉ vis) : Byte.newline ∉ lang.visibilityKeyword kind vis := by
  unfold visibilityKeyword
  split
  · exact List.not_mem_nil
  · exact hvis

theorem newline_notMem_keyword {name base : Text} {opts : LanguageOptions} {lang : Language}
    (hbuild : build name base opts = .ok lang) {tok : Token} (htok : tok ∈ lang.tokens) :
    Byte.newline ∉ tok.keyword := by
  intro hmem
  have hword := ((build_soundKeywords hbuild).1.2.1 tok htok).2.1
  exact absurd (Text.isWord_of_isHeaderWord hword _ hmem) (by decide)

end Language

/-! ## Steps reshape their span -/

namespace Step

/-- Whatever the step does, it reshapes the span. -/
def Reshapes (first last : Nat) (f : Step) : Prop :=
  ∀ w : Work, w.buffer.Reshapes first last (f w).work.buffer

theorem reshapes_of_buffer_eq {first last : Nat} {f : Step}
    (h : ∀ w, (f w).work.buffer = w.buffer) : f.Reshapes first last := by
  intro w
  rw [h w]
  exact .refl _

theorem skip_reshapes {first last : Nat} : skip.Reshapes first last :=
  reshapes_of_buffer_eq fun _ => rfl

theorem report_reshapes {first last : Nat} (scope : Option ToggleScope) (e : Event) :
    (report scope e).Reshapes first last := reshapes_of_buffer_eq fun _ => rfl

theorem Reshapes.andThen {first last : Nat} {f g : Step} (hf : f.Reshapes first last)
    (hg : g.Reshapes first last) : (f.andThen g).Reshapes first last := by
  intro w
  unfold Step.andThen
  dsimp only
  split
  · exact hf w
  · exact (hf w).trans (hg _)

theorem Reshapes.mapError {first last : Nat} {f : Step} (hf : f.Reshapes first last)
    (context : EditError → EditError) : (f.mapError context).Reshapes first last := hf

theorem editLine_reshapes (scope : Option ToggleScope) (span : Span) {r : LineEdit}
    (hr : r.OneLine) {otherwise : Step}
    (ho : otherwise.Reshapes span.first.toNat span.last.toNat) :
    (editLine scope span r otherwise).Reshapes span.first.toNat span.last.toNat := by
  intro w
  unfold editLine
  split
  · next l new hfirst =>
    obtain ⟨l', hl', htaken⟩ := List.exists_of_findSome?_eq_some hfirst
    split at htaken
    · cases htaken
    · obtain ⟨new', hnew, heq⟩ := Option.map_eq_some_iff.1 htaken
      obtain ⟨rfl, rfl⟩ := Prod.mk.inj heq
      exact setLine_reshapes scope hl' (hr l' new' (Buffer.newline_notMem_text hl') hnew)
  · exact ho w

/-- Groups are no part of the text. -/
theorem Reshapes.grouped {first last : Nat} {f : Step} (hf : f.Reshapes first last) :
    (Editor.grouped f).Reshapes first last := by
  intro w
  have hbegin : w.buffer.Reshapes first last w.buffer.beginGroup := .of_eq rfl rfl
  have hend : ∀ b : Buffer, b.Reshapes first last b.endGroup := by
    intro b
    unfold Buffer.endGroup
    split
    · exact .refl b
    · split <;> exact .of_eq rfl rfl
    · exact .of_eq rfl rfl
  exact (hbegin.trans (hf { w with buffer := w.buffer.beginGroup })).trans (hend _)

end Step

namespace Editor

open Step

section

variable {ed : Editor} (hkeywords : ∀ tok ∈ ed.lang.tokens, Byte.newline ∉ tok.keyword)
  (span : Span)

theorem changeAccess_reshapes (kind : Kind) {vis : Text} (hvis : Byte.newline ∉ vis) :
    (ed.changeAccess span kind vis).Reshapes span.first.toNat span.last.toNat := by
  have hkeyword := ed.lang.newline_notMem_visibilityKeyword kind hvis
  refine editLine_reshapes _ _ (LineEdit.replaceVisibility_oneLine _ hkeyword) ?_
  split
  · exact skip_reshapes
  · exact editLine_reshapes _ _ (LineEdit.insertVisibility_oneLine _ hkeyword) skip_reshapes

theorem removeModifier_reshapes (m : Modifier) :
    (ed.removeModifier span m).Reshapes span.first.toNat span.last.toNat := by
  unfold removeModifier
  split
  · exact editLine_reshapes _ _ (LineEdit.removeToken_oneLine _ _) skip_reshapes
  · exact skip_reshapes

include hkeywords

theorem addModifier_reshapes (m : Modifier) :
    (ed.addModifier span m).Reshapes span.first.toNat span.last.toNat := by
  unfold addModifier
  split
  · next tok htok =>
    have hkeyword := hkeywords tok (List.mem_of_find?_eq_some htok)
    exact editLine_reshapes _ _ (LineEdit.addToken_oneLine _ hkeyword) skip_reshapes
  · exact report_reshapes _ _

theorem fixPlacement_reshapes (m : Modifier) :
    (ed.fixPlacement m span).Reshapes span.first.toNat span.last.toNat := by
  unfold fixPlacement
  split
  · exact skip_reshapes
  · next tok htok =>
    split
    · exact skip_reshapes
    · next r hr =>
      have hkeyword := hkeywords tok (List.mem_of_find?_eq_some htok)
      exact editLine_reshapes _ _ (LineEdit.place?_oneLine _ hkeyword hr) (report_reshapes _ _)

theorem normalize_reshapes : (ed.normalize span).Reshapes span.first.toNat span.last.toNat :=
  normalize_induction ed span skip_reshapes (fun _ _ => Reshapes.andThen)
    (editLine_reshapes _ _ (LineEdit.orderModifiers_oneLine _) skip_reshapes)
    (fixPlacement_reshapes hkeywords span)

theorem runJob_reshapes (kind : Kind) {vis : Text} {job : Job}
    (hvis : job = .changeAccess → Byte.newline ∉ vis) :
    (ed.runJob span kind vis job).Reshapes span.first.toNat span.last.toNat :=
  runJob_induction ed span kind vis skip_reshapes (fun _ _ => Reshapes.andThen)
    (addModifier_reshapes hkeywords span) (removeModifier_reshapes span)
    (fun _ => reshapes_of_buffer_eq fun _ => rfl)
    fun hjob => changeAccess_reshapes span kind (hvis hjob)

end

/-- Applying an entry reshapes the header span of its declaration. -/
theorem apply_reshapes {name base : Text} {opts : LanguageOptions} {lang : Language}
    (hbuild : Language.build name base opts = .ok lang) (scope : Option ToggleScope)
    {action : Action} {s : Inspection} (htarget : action.target = some s)
    (hvis : action.job = .changeAccess → Byte.newline ∉ action.visibility) :
    (apply ⟨lang, scope⟩ action).Reshapes s.target.lineFrom.toNat s.header.line := by
  have hkeywords : ∀ tok ∈ lang.tokens, Byte.newline ∉ tok.keyword := fun tok =>
    Language.newline_notMem_keyword hbuild
  rw [apply, htarget]
  refine Reshapes.grouped (.andThen (.mapError ?_ _)
    (.andThen (.mapError ?_ _) (report_reshapes _ _)))
  · exact runJob_reshapes hkeywords s.span s.kind hvis
  · exact normalize_reshapes hkeywords s.span

/-- **Applying a toggle stays inside the header span.** Take a table that can be built, a
    declaration as inspection reports it, and any entry for it whose visibility has no newline.
    Applied to any buffer, and at whatever point the owner of the buffer stops accepting
    replacements, the entry changes the text only from the start of the declaration to the end of
    its header line. That part keeps its newlines, all other lines are what they were, and the
    cursor stays on its line, so that the declaration under it is the same as before. -/
theorem apply_staysInSpan {name base : Text} {opts : LanguageOptions} {lang : Language}
    (hbuild : Language.build name base opts = .ok lang) (scope : Option ToggleScope)
    {inspected : Buffer} {found : Found} {s : Inspection}
    (hs : inspected.inspect? lang found = some s) {action : Action}
    (htarget : action.target = some s) (hvis : Byte.newline ∉ action.visibility) (w : Work) :
    let b := w.buffer
    let b' := (apply ⟨lang, scope⟩ action w).work.buffer
    (∃ mid, b'.text = b.text.take (b.lineStart s.target.lineFrom) ++ mid
          ++ b.text.drop (b.lineEnd s.header.line) ∧
        mid.count Byte.newline
          = (b.text.slice (b.lineStart s.target.lineFrom) (b.lineEnd s.header.line)).count
              Byte.newline) ∧
      b'.lineCount = b.lineCount ∧
      (∀ n : Int, n < s.target.lineFrom ∨ s.header.line < n → b'.line n = b.line n) ∧
      b'.lineAt b'.cursor = b.lineAt b.cursor ∧
      ∀ model : FileModel,
        model.locate? (b'.lineAt b'.cursor) = model.locate? (b.lineAt b.cursor) := by
  intro b b'
  have hle : s.target.lineFrom.toNat ≤ s.header.line := by
    obtain ⟨above, l, at_, hlines, -, -, hheader⟩ :=
      Buffer.findHeader?_split (Buffer.findHeader?_of_inspect? hs)
    rw [hheader, (Buffer.codeLines_split hlines).1]
    exact Nat.le_add_right _ _
  have hreshapes : b.Reshapes s.target.lineFrom.toNat s.header.line b' :=
    apply_reshapes hbuild scope htarget (fun _ => hvis) w
  have hstart := b.lineStart_toNat s.target.lineFrom
  obtain ⟨mid, htext, hcount⟩ := hreshapes.text_eq hle
  refine ⟨⟨mid, ?_, ?_⟩, hreshapes.lineCount_eq, fun n hn => hreshapes.line_eq (by omega),
    hreshapes.lineAt_eq, fun model => by rw [hreshapes.lineAt_eq]⟩
  · rw [hstart, htext]
  · rw [hstart, hcount]

/-- A final method on two lines that end with a carriage return, between other lines, with the
    cursor in a line end. The owner of the buffer accepts one more replacement. -/
def returnsWork : Work :=
  { buffer := { text := utf8 "// a\r\n@:final\r\nfunction f() \x7b\x7d\r\n// b", cursor := 14 }
    writesLeft := some 1 }

/-- The method, as the engine reports it. -/
def returnsMethod : Found where
  enclosing := { declaration := { name := utf8 "A", lineFrom := 0, lineTo := 3 } }
  member := some { name := utf8 "f", lineFrom := 1, lineTo := 2, flags := .function }

/-- Making the method static is refused when `@:final` has gone, and the other lines stay. -/
theorem apply_staysInSpan_refused :
    Language.build [] (utf8 "haxe") {} = .ok (Language.haxe {}) ∧
    ∃ s, returnsWork.buffer.inspect? (Language.haxe {}) returnsMethod = some s ∧
      let o := apply ⟨Language.haxe {}, none⟩
        { label := [], job := .addStatic, target := some s } returnsWork
      o.error.isSome = true ∧
      o.work.buffer.text = utf8 "// a\r\n\r\nfunction f() \x7b\x7d\r\n// b" ∧
      o.work.buffer.lineCount = returnsWork.buffer.lineCount ∧
      o.work.buffer.line 3 = returnsWork.buffer.line 3 ∧
      o.work.buffer.lineAt o.work.buffer.cursor
        = returnsWork.buffer.lineAt returnsWork.buffer.cursor := by
  have hbuild : Language.build [] (utf8 "haxe") {} = .ok (Language.haxe {}) := rfl
  have hedits : (returnsWork.buffer.inspect? (Language.haxe {}) returnsMethod).any (fun s =>
      let o := apply ⟨Language.haxe {}, none⟩
        { label := [], job := .addStatic, target := some s } returnsWork
      s.header.line == 2 && o.error.isSome &&
        o.work.buffer.text == utf8 "// a\r\n\r\nfunction f() \x7b\x7d\r\n// b") = true := by decide
  obtain ⟨s, hs, hedits⟩ := (Option.any_eq_true _ _).1 hedits
  simp only [Bool.and_eq_true, beq_iff_eq] at hedits
  obtain ⟨⟨hline, herror⟩, htext⟩ := hedits
  obtain ⟨-, hcount, hlines, hcursor, -⟩ := apply_staysInSpan hbuild none hs
    (rfl : ({ label := [], job := .addStatic, target := some s } : Action).target = some s)
    List.not_mem_nil returnsWork
  exact ⟨hbuild, s, hs, herror, htext, hcount, hlines 3 (by omega), hcursor⟩

end Editor

end ModifierToggle
