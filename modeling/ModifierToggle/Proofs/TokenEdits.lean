import ModifierToggle.Proofs.CodeLines
import ModifierToggle.Proofs.CommentReading
import ModifierToggle.Proofs.Occurrences
import ModifierToggle.Proofs.Tables

set_option autoImplicit false

/-! # Where tokens are added and removed

Inspection and editing look at a declaration in two ways. Inspection knows the header it has found
and searches the lines up to it; an edit searches the span again, line by line, and stops at the
first line it can change. They look at the same texts (`Buffer.modifierTexts_eq`), so they agree on
where the header is and on which occurrence of a token comes first, and since removing comments
keeps offsets, an edit changes the text just there (`Editor.addToken_removeToken_exact`). -/

namespace ModifierToggle

/-! ## Taking a part out of a text -/

/-- What is left of a text when what stands between `u` and `v` is taken out, with at most one space
    or tab beside it. -/
inductive Text.Rejoined (u v : Text) : Text → Prop
  | exact : Rejoined u v (u ++ v)
  | blankAfter {c : UInt8} {v' : Text} : Byte.isBlank c = true → v = c :: v' →
      Rejoined u v (u ++ v')
  | blankBefore {c : UInt8} {u' : Text} : Byte.isBlank c = true → u = u' ++ [c] →
      Rejoined u v (u' ++ v)

theorem Text.Rejoined.fill {u v t : Text} (h : Text.Rejoined u v t) (before after : Text) :
    Text.Rejoined (before ++ u) (v ++ after) (before ++ t ++ after) := by
  cases h with
  | exact =>
    rw [← List.append_assoc, List.append_assoc _ v]
    exact .exact
  | @blankAfter c v' hc hv =>
    rw [← List.append_assoc, List.append_assoc _ v']
    exact .blankAfter hc (by rw [hv, List.cons_append])
  | @blankBefore c u' hc hu =>
    rw [← List.append_assoc, List.append_assoc _ v]
    exact .blankBefore hc (by rw [hu, List.append_assoc])

theorem Text.Rejoined.length_le {u v t : Text} (h : Text.Rejoined u v t) :
    t.length ≤ u.length + v.length := by
  cases h <;> simp_all

theorem Text.Rejoined.ne {u v t k : Text} (h : Text.Rejoined u v t) (hk : k ≠ []) :
    t ≠ u ++ k ++ v := by
  rintro rfl
  have hshorter := h.length_le
  have hpos := List.length_pos_iff.2 hk
  simp only [List.length_append] at hshorter
  omega

namespace LineEdit

theorem insertAt_length (u v keyword : Text) :
    insertAt (u ++ v) keyword u.length = u ++ keyword ++ [Byte.space] ++ v := by
  rw [insertAt, List.take_left, List.drop_left]

theorem cut_rejoined (u w v : Text) :
    Text.Rejoined u v (cut (u ++ (w ++ v)) u.length (u.length + w.length)) := by
  have hdrop : ∀ n, (u ++ (w ++ v)).drop (u.length + w.length + n) = v.drop n := by
    intro n
    rw [← List.append_assoc, ← List.length_append, ← List.drop_drop, List.drop_left]
  unfold cut
  split
  · next hblank =>
    obtain ⟨c, hc, hb⟩ := Option.any_eq_true _ _ |>.1 hblank
    rw [← List.append_assoc, ← List.length_append, List.getElem?_append_right (Nat.le_refl _),
      Nat.sub_self, ← List.head?_eq_getElem?, List.head?_eq_some_iff] at hc
    obtain ⟨v', rfl⟩ := hc
    rw [List.take_left, hdrop 1]
    exact .blankAfter hb rfl
  · split
    · next hblank =>
      rw [Bool.and_eq_true, decide_eq_true_eq] at hblank
      obtain ⟨hpos, hblank⟩ := hblank
      obtain ⟨c, hc, hb⟩ := Option.any_eq_true _ _ |>.1 hblank
      obtain ⟨u', d, rfl⟩ := (List.eq_nil_or_concat' u).resolve_left (List.length_pos_iff.1 hpos)
      have hlength : (u' ++ [d]).length - 1 = u'.length := by simp
      rw [hlength, List.append_assoc] at hc
      obtain rfl : d = c := by simpa using hc
      rw [hlength, List.append_assoc, List.take_left, ← List.append_assoc]
      have hrest := hdrop 0
      rw [Nat.add_zero, List.drop_zero] at hrest
      rw [hrest]
      exact .blankBefore hb rfl
    · have hrest := hdrop 0
      rw [Nat.add_zero, List.drop_zero] at hrest
      rw [List.take_left, hrest]
      exact .exact

end LineEdit

/-! ## The texts that are searched -/

/-- What is searched of a line is a front of its code. -/
theorem CodeLine.searchable_append (l : CodeLine) (lang : Language) :
    ∃ rest, l.code = l.searchable lang ++ rest := by
  unfold searchable
  split
  · exact ⟨_, (List.take_append_drop _ _).symm⟩
  · exact ⟨[], (List.append_nil _).symm⟩

/-- Inspecting a declaration and editing it look at the same texts. -/
theorem Buffer.modifierTexts_eq {b : Buffer} {lang : Language} {span : Span} {header : Header}
    (h : b.findHeader? lang span = some header) :
    b.modifierTexts span.first header
      = (b.codeLines ⟨span.first, header.line⟩).map (·.searchable lang) := by
  obtain ⟨above, l, at_, hlines, habove, hat, rfl⟩ := findHeader?_split h
  rw [modifierTexts]
  refine List.map_congr_left fun l' hl' => ?_
  simp only at hlines hl' ⊢
  rw [hlines] at hl'
  rcases List.mem_append.1 hl' with habove' | hself
  · have hlt := number_lt_of_mem_above hlines habove'
    rw [if_neg (by omega), CodeLine.searchable, habove l' habove']
  · obtain rfl := List.mem_singleton.1 hself
    rw [if_pos rfl, CodeLine.searchable, hat]

/-! ## The line that is edited -/

section

variable {b : Buffer} {span : Span} {l : CodeLine}

/-- What stands in the code of a line without spaces stands there in its text. -/
theorem Buffer.exists_text_of_code (hl : l ∈ b.codeLines span) {u w v : Text}
    (hcode : l.code = u ++ (w ++ v)) (hne : w ≠ []) (hw : ∀ c ∈ w, c ≠ Byte.space) :
    ∃ a y, l.text = a ++ (w ++ y) ∧ a.length = u.length := by
  obtain ⟨above, below, hsplit⟩ := List.append_of_mem hl
  obtain ⟨-, -, -, hstrip⟩ := codeLines_split hsplit
  rw [hstrip, Comment.stripLine] at hcode
  obtain ⟨a, y, htext, hreads, -⟩ :=
    Comment.exists_text (Prod.ext hcode rfl : Comment.strip _ _ = (_, _)) hne hw
  refine ⟨a, y, htext, ?_⟩
  have hlength := hreads.length_eq
  split at hlength <;> simpa [Comment.Mode.width] using hlength.symm

/-- Giving a line of a span a new text changes the text of the buffer there. -/
theorem Buffer.exists_setLine (hl : l ∈ b.codeLines span) :
    ∃ before after, b.text = before ++ l.text ++ after ∧ b.lineStart l.number = before.length ∧
      ∀ (scope : Option ToggleScope) (y : Text) (w : Work), w.buffer = b → w.writesLeft ≠ some 0 →
        (Step.setLine scope l y w).error = none ∧
          (Step.setLine scope l y w).work.buffer.text = before ++ y ++ after := by
  obtain ⟨above, below, hsplit⟩ := List.append_of_mem hl
  obtain ⟨-, hline, -, -⟩ := codeLines_split hsplit
  obtain ⟨s, hfill, hlength, hnewline, hfits⟩ := Text.exists_site hline
  have hfits' := hfits l.text hnewline id
  refine ⟨s.before, s.after, hfill.symm, ?_, ?_⟩
  · rw [lineStart, ← hlength, hfits'.lineSpan hfill.symm]
  · intro scope y w hw hwrites
    obtain ⟨number, text, code⟩ := l
    obtain rfl : s.above.length = number := hlength
    exact Step.setLine_fill scope hfits' code y hwrites (hw ▸ hfill.symm)

end

/-! ## The first occurrence of a token -/

/-- Among some texts, the word first stands alone in the text with index `i`, at offset `p`. -/
def Keyword.FirstAmong (w : Text) (texts : List Text) (i p : Nat) : Prop :=
  ∃ above t below, texts = above ++ t :: below ∧ above.length = i ∧
    StandsAlone w t p ∧ (∀ q < p, ¬ StandsAlone w t q) ∧
    ∀ t' ∈ above, ∀ q, ¬ StandsAlone w t' q

theorem Keyword.exists_firstAmong {w : Text} {find : Text → Option Keyword.Occurrence}
    (hfind : ∀ t, IsFirst w t (find t)) {texts : List Text}
    (h : (texts.any fun t => (find t).isSome) = true) : ∃ i p, FirstAmong w texts i p := by
  induction texts with
  | nil => cases h
  | cons t texts ih =>
    have ht := hfind t
    cases hat : find t with
    | none =>
      rw [List.any_cons, hat] at h
      obtain ⟨i, p, above, t', below, rfl, rfl, halone, hfirst, habove⟩ := ih h
      refine ⟨_, p, t :: above, t', below, rfl, rfl, halone, hfirst, ?_⟩
      rintro t'' (_ | ⟨_, hmem⟩)
      · rw [hat] at ht
        exact ht
      · exact habove t'' hmem
    | some at_ =>
      rw [hat] at ht
      exact ⟨0, at_.start, [], t, texts, rfl, rfl, ht.1, ht.2.2, by simp⟩

/-- Inspection sees a token where it first stands alone. -/
theorem Buffer.hasToken_iff {b : Buffer} {first : Int} {header : Header} {tok : Token}
    {keyword : Text} (hfind : ∀ t, Keyword.IsFirst keyword t (tok.find? t)) :
    b.hasToken first header tok = true
      ↔ ∃ i p, Keyword.FirstAmong keyword (b.modifierTexts first header) i p := by
  refine ⟨Keyword.exists_firstAmong hfind, ?_⟩
  rintro ⟨i, p, above, t, below, htexts, -, halone, -⟩
  refine List.any_eq_true.2 ⟨t, ?_, (hfind t).isSome_iff.2 ⟨p, halone⟩⟩
  simp [htexts]

/-- What is found where a word first stands alone. -/
theorem Keyword.IsFirst.eq_some {w t : Text} {found : Option Occurrence} (h : IsFirst w t found)
    {p : Nat} (hp : StandsAlone w t p) (hfirst : ∀ q < p, ¬ StandsAlone w t q) :
    ∃ at_, found = some at_ ∧ at_.start = p ∧ at_.stop = p + w.length := by
  cases found with
  | none => exact absurd hp (h p)
  | some at_ =>
    obtain ⟨halone, hstop, hfirst'⟩ := h
    have hstart : at_.start = p := by
      rcases Nat.lt_trichotomy at_.start p with hlt | heq | hgt
      · exact absurd halone (hfirst _ hlt)
      · exact heq
      · exact absurd hp (hfirst' p hgt)
    exact ⟨at_, rfl, hstart, hstart ▸ hstop⟩

namespace LineEdit

open Keyword

section

variable {b : Buffer} {lang : Language} {span : Span} {tok : Token} {keyword : Text}

variable (hkeyword : keyword ≠ []) (hsep : ∀ c ∈ keyword, Byte.isSeparator c = false)
  (hfind : ∀ t, IsFirst keyword t (tok.find? t))

include hkeyword hsep in
/-- A token that stands alone in what is searched of a line stands there in its text. -/
theorem exists_text_of_standsAlone {l : CodeLine} (hl : l ∈ b.codeLines span) {p : Nat}
    (hp : StandsAlone keyword (l.searchable lang) p) :
    ∃ a y, l.text = a ++ (keyword ++ y) ∧ a.length = p := by
  obtain ⟨u, v, hsearchable, rfl, -, -⟩ := hp
  obtain ⟨rest, hcode⟩ := l.searchable_append lang
  rw [hsearchable, List.append_assoc, List.append_assoc] at hcode
  refine Buffer.exists_text_of_code hl hcode hkeyword fun c hc hspace => ?_
  exact absurd (hsep c hc) (by rw [hspace]; decide)

include hkeyword hsep hfind in
/-- The occurrence that is taken is the first one. -/
theorem first?_removeToken {i p : Nat}
    (h : FirstAmong keyword ((b.codeLines span).map (·.searchable lang)) i p) :
    ∃ l ∈ b.codeLines span, l.number = span.first.toNat + i ∧
      StandsAlone keyword (l.searchable lang) p ∧
      (removeToken lang tok).first? (b.codeLines span)
        = some (l, cut l.text p (p + keyword.length)) := by
  obtain ⟨above, t, below, hsplit, rfl, halone, hfirst, habove⟩ := h
  obtain ⟨lines, rest, hlines, rfl, hrest⟩ := List.map_eq_append_iff.1 hsplit
  obtain ⟨l, lines', rfl, rfl, rfl⟩ := List.map_eq_cons_iff.1 hrest
  have hl : l ∈ b.codeLines span := by simp [hlines]
  obtain ⟨a, y, htext, -⟩ := exists_text_of_standsAlone hkeyword hsep hl halone
  obtain ⟨at_, hat, hstart, hstop⟩ := (hfind _).eq_some halone hfirst
  refine ⟨l, hl, ?_, halone, ?_⟩
  · rw [(Buffer.codeLines_split hlines).1, List.length_map]
  · rw [hlines]
    refine first?_split (fun l' hl' => ?_) (by simp [htext, hkeyword]) (by
      simp [removeToken, hat, hstart, hstop])
    have hnone : ¬ ∃ q, StandsAlone keyword (l'.searchable lang) q := by
      rintro ⟨q, hq⟩
      exact habove _ (List.mem_map_of_mem hl') q hq
    rw [← (hfind _).isSome_iff, Option.not_isSome_iff_eq_none] at hnone
    rw [removeToken, hnone, Option.map_none]

end

end LineEdit

/-! ## Adding and removing a token -/

/-- The keyword of a token is found where it first stands alone. -/
theorem Token.new_isFirst (m : Modifier) {keyword : Text} (position : Position)
    (placement : Placement) (targets : List Kind) (hne : keyword ≠ [])
    (hkeyword : ∀ b ∈ keyword, b < 0x80 ∧ Byte.isSeparator b = false) (t : Text) :
    Keyword.IsFirst keyword t ((Token.new m keyword position placement targets).find? t) := by
  have hwords : (Token.patternOf keyword).words = [keyword] := by
    simp [Token.patternOf, hne]
  exact Keyword.Pattern.find?_isFirst hwords rfl hne (fun b hb => (hkeyword b hb).2)
    (fun b hb => (hkeyword b hb).1) t

/-- The keyword that opens a declaration stands in the code where it is found. -/
theorem Language.SoundKeywords.findStart?_sound {lang : Language} (hlang : lang.SoundKeywords)
    {code : Text} {at_ : Keyword.Occurrence} (h : lang.findStart? code = some at_) :
    ∃ u w v, code = u ++ (w ++ v) ∧ w.isHeaderWord = true ∧ u.length = at_.start := by
  obtain ⟨p, hp, hfind⟩ := Option.bind_eq_some_iff.1 h
  have hwords : ∀ w ∈ p.words, w.isHeaderWord = true := by
    intro w hw
    exact hlang.1 w (by simpa [startWords, hp] using hw)
  rw [(Keyword.Pattern.plain_of_isHeaderWord hwords).find?_eq] at hfind
  obtain ⟨u, w, v, hcode, hw, hstart, -⟩ := Keyword.Pattern.scan_sound hfind
  exact ⟨u, w, v, hcode, hwords w hw, by omega⟩

namespace Editor

section

variable {ed : Editor} {w : Work} {span : Span} {header : Header} (hw : w.writesLeft ≠ some 0)
  (hheader : w.buffer.findHeader? ed.lang span = some header)

include hw hheader in
/-- A token is added directly before the keyword of the header that inspection finds. -/
theorem addToken_exact (hlang : ed.lang.SoundKeywords) (tok : Token) :
    (ed.addToken ⟨span.first, header.line⟩ tok w).error = none ∧
      ∃ u v, w.buffer.text = u ++ v ∧
        u.length = w.buffer.lineStart header.line + header.start ∧
        (ed.addToken ⟨span.first, header.line⟩ tok w).work.buffer.text
          = u ++ tok.keyword ++ [Byte.space] ++ v := by
  obtain ⟨above, l, at_, hlines, habove, hat, rfl⟩ := Buffer.findHeader?_split hheader
  simp only at hlines ⊢
  have hl : l ∈ w.buffer.codeLines ⟨span.first, l.number⟩ := by simp [hlines]
  obtain ⟨u, k, v, hcode, hk, hu⟩ := hlang.findStart?_sound hat
  have hspace : ∀ c ∈ k, c ≠ Byte.space := by
    rintro c hc rfl
    exact absurd (Text.isWord_of_isHeaderWord hk _ hc) (by decide)
  obtain ⟨a, y, htext, ha⟩ :=
    Buffer.exists_text_of_code hl hcode (Text.ne_nil_of_isHeaderWord hk) hspace
  obtain ⟨before, after, hbuffer, hstart, hset⟩ := Buffer.exists_setLine hl
  have hfirst : (LineEdit.addToken ed.lang tok).first?
      (w.buffer.codeLines ⟨span.first, l.number⟩)
      = some (l, LineEdit.insertAt l.text tok.keyword at_.start) := by
    rw [hlines]
    refine LineEdit.first?_split (fun l' hl' => ?_) ?_ ?_
    · rw [LineEdit.addToken, habove l' hl', Option.map_none]
    · simp [htext, Text.ne_nil_of_isHeaderWord hk]
    · rw [LineEdit.addToken, hat, Option.map_some]
  obtain ⟨herror, htext'⟩ := hset ed.scope (LineEdit.insertAt l.text tok.keyword at_.start) w rfl hw
  rw [addToken, Step.editLine, hfirst]
  refine ⟨herror, before ++ a, k ++ y ++ after, ?_, ?_, ?_⟩
  · rw [hbuffer, htext]
    simp only [List.append_assoc]
  · rw [hstart, List.length_append, ha, hu]
  · rw [htext', htext, ← hu, ← ha, LineEdit.insertAt_length]
    simp only [List.append_assoc]

variable {tok : Token} {keyword : Text} (hne : keyword ≠ [])
  (hsep : ∀ c ∈ keyword, Byte.isSeparator c = false)
  (hfind : ∀ t, Keyword.IsFirst keyword t (tok.find? t))

include hw hheader hne hsep hfind in
/-- A token is removed where it first occurs among the modifiers that inspection looks at. -/
theorem removeToken_exact {i p : Nat}
    (h : Keyword.FirstAmong keyword (w.buffer.modifierTexts span.first header) i p) :
    (ed.removeToken ⟨span.first, header.line⟩ tok w).error = none ∧
      ∃ u v, w.buffer.text = u ++ keyword ++ v ∧
        u.length = w.buffer.lineStart ((span.first.toNat + i : Nat) : Int) + p ∧
        Text.Rejoined u v (ed.removeToken ⟨span.first, header.line⟩ tok w).work.buffer.text := by
  rw [Buffer.modifierTexts_eq hheader] at h
  obtain ⟨l, hl, hnumber, halone, hfirst⟩ := LineEdit.first?_removeToken hne hsep hfind h
  obtain ⟨a, y, htext, rfl⟩ := LineEdit.exists_text_of_standsAlone hne hsep hl halone
  obtain ⟨before, after, hbuffer, hstart, hset⟩ := Buffer.exists_setLine hl
  obtain ⟨herror, htext'⟩ :=
    hset ed.scope (LineEdit.cut l.text a.length (a.length + keyword.length)) w rfl hw
  rw [removeToken, Step.editLine, hfirst]
  refine ⟨herror, before ++ a, y ++ after, ?_, ?_, ?_⟩
  · rw [hbuffer, htext]
    simp only [List.append_assoc]
  · rw [← hnumber, hstart, List.length_append]
  · rw [htext', htext]
    exact (LineEdit.cut_rejoined a keyword y).fill before after

include hheader in
/-- A token that inspection does not see is not removed. -/
theorem removeToken_of_not_hasToken
    (h : w.buffer.hasToken span.first header tok = false) :
    ed.removeToken ⟨span.first, header.line⟩ tok w = { work := w } := by
  rw [Buffer.hasToken, Buffer.modifierTexts_eq hheader, List.any_map, List.any_eq_false] at h
  have hnone : (LineEdit.removeToken ed.lang tok).first?
      (w.buffer.codeLines ⟨span.first, header.line⟩) = none := by
    refine LineEdit.first?_eq_none fun l hl => ?_
    rw [LineEdit.removeToken, Option.not_isSome_iff_eq_none.1 (h l hl), Option.map_none]
  rw [removeToken, Step.editLine, hnone]
  rfl

include hne hsep hfind in
theorem removalBreaksDown_eq_false (span : Span) (b : Buffer) :
    ed.removalBreaksDown span tok b = false := by
  rw [removalBreaksDown]
  cases hfound : (b.codeLines span).findSome? fun l =>
      (tok.find? (l.searchable ed.lang)).map fun at_ => decide (l.text.length < at_.stop) with
  | none => rfl
  | some breaks =>
    obtain ⟨l, hl, hbreaks⟩ := List.exists_of_findSome?_eq_some hfound
    obtain ⟨at_, hat, rfl⟩ := Option.map_eq_some_iff.1 hbreaks
    have hfirst := hfind (l.searchable ed.lang)
    rw [hat] at hfirst
    obtain ⟨a, y, htext, ha⟩ := LineEdit.exists_text_of_standsAlone hne hsep hl hfirst.1
    rw [Option.getD_some, decide_eq_false_iff_not, hfirst.2.1, htext, ← ha]
    simp only [List.length_append]
    omega

end

/-- **Inspection and editing agree on the header and on its modifiers.** Take a table that can be
    built, a declaration that inspection finds, and a token whose keyword is ASCII without white
    space. The token is added, with a space behind it, exactly where inspection finds the keyword of
    the declaration. Removing the token changes the buffer exactly if inspection sees the token, and
    then takes out the first of the occurrences that inspection looks at, the topmost and on its
    line the leftmost, with at most one space or tab beside it. -/
theorem addToken_removeToken_exact {name base : Text} {opts : LanguageOptions} {lang : Language}
    (hbuild : Language.build name base opts = .ok lang) (scope : Option ToggleScope)
    {found : Found} {s : Inspection} {w : Work} (hw : w.writesLeft ≠ some 0)
    (hs : w.buffer.inspect? lang found = some s) {keyword : Text} (hne : keyword ≠ [])
    (hkeyword : ∀ b ∈ keyword, b < 0x80 ∧ Byte.isSeparator b = false) (m : Modifier)
    (position : Position) (placement : Placement) (targets : List Kind) :
    let ed : Editor := ⟨lang, scope⟩
    let tok := Token.new m keyword position placement targets
    let added := ed.addToken s.span tok w
    let removed := ed.removeToken s.span tok w
    let texts := w.buffer.modifierTexts s.target.lineFrom s.header
    (added.error = none ∧ ∃ u v, w.buffer.text = u ++ v ∧
      u.length = w.buffer.lineStart s.header.line + s.header.start ∧
      added.work.buffer.text = u ++ keyword ++ [Byte.space] ++ v) ∧
    removed.error = none ∧ ed.removalBreaksDown s.span tok w.buffer = false ∧
    (removed.work.buffer ≠ w.buffer
      ↔ w.buffer.hasToken s.target.lineFrom s.header tok = true) ∧
    (w.buffer.hasToken s.target.lineFrom s.header tok = true
      ↔ ∃ i p, Keyword.FirstAmong keyword texts i p) ∧
    ∀ i p, Keyword.FirstAmong keyword texts i p →
      ∃ u v, w.buffer.text = u ++ keyword ++ v ∧
        u.length = w.buffer.lineStart ((s.target.lineFrom.toNat + i : Nat) : Int) + p ∧
        Text.Rejoined u v removed.work.buffer.text := by
  intro ed tok added removed texts
  have hlang : lang.SoundKeywords := (Language.build_soundKeywords hbuild).1
  have hheader : w.buffer.findHeader? ed.lang s.target.span = some s.header :=
    Buffer.findHeader?_of_inspect? hs
  have hfind : ∀ t, Keyword.IsFirst keyword t (tok.find? t) :=
    Token.new_isFirst m position placement targets hne hkeyword
  have hsep : ∀ c ∈ keyword, Byte.isSeparator c = false := fun c hc => (hkeyword c hc).2
  have hremoved : ∀ i p, Keyword.FirstAmong keyword texts i p → removed.error = none ∧
      ∃ u v, w.buffer.text = u ++ keyword ++ v ∧
        u.length = w.buffer.lineStart ((s.target.lineFrom.toNat + i : Nat) : Int) + p ∧
        Text.Rejoined u v removed.work.buffer.text :=
    fun i p h => removeToken_exact hw hheader hne hsep hfind h
  have hkept : w.buffer.hasToken s.target.lineFrom s.header tok = false →
      removed = { work := w } := removeToken_of_not_hasToken hheader
  have hsome : w.buffer.hasToken s.target.lineFrom s.header tok = true
      ↔ ∃ i p, Keyword.FirstAmong keyword texts i p := Buffer.hasToken_iff hfind
  refine ⟨addToken_exact hw hheader hlang tok, ?_, removalBreaksDown_eq_false hne hsep hfind _ _,
    ?_, hsome, fun i p h => (hremoved i p h).2⟩
  · cases hhas : w.buffer.hasToken s.target.lineFrom s.header tok with
    | false => rw [hkept hhas]
    | true =>
      obtain ⟨i, p, hfirst⟩ := hsome.1 hhas
      exact (hremoved i p hfirst).1
  · constructor
    · intro hchanged
      by_contra hhas
      rw [hkept (Bool.not_eq_true _ ▸ hhas)] at hchanged
      exact hchanged rfl
    · intro hhas hsame
      obtain ⟨i, p, hfirst⟩ := hsome.1 hhas
      obtain ⟨-, u, v, htext, -, hrejoined⟩ := hremoved i p hfirst
      exact hrejoined.ne hne (hsame ▸ htext)

/-- A method with modifiers on two lines, the first of them behind a comment that names one. The
    owner of the buffer accepts one more replacement. -/
def twoLineWork : Work :=
  { buffer := Buffer.ofText (utf8 "/* static */ static\n\tstatic function f() \x7b\x7d")
    writesLeft := some 1 }

/-- The method, as the engine reports it. -/
def twoLineMethod : Found where
  enclosing := { declaration := { name := utf8 "A", lineFrom := 0, lineTo := 1 } }
  member := some { name := utf8 "f", lineFrom := 0, lineTo := 1, flags := .function }

/-- Of the two tokens outside the comment, the one on the upper line is removed. -/
theorem addToken_removeToken_exact_twoLines :
    Language.build [] (utf8 "haxe") {} = .ok (Language.haxe {}) ∧
    (∀ b ∈ utf8 "static", b < 0x80 ∧ Byte.isSeparator b = false) ∧
    ∃ s, twoLineWork.buffer.inspect? (Language.haxe {}) twoLineMethod = some s ∧
      let ed : Editor := ⟨Language.haxe {}, none⟩
      let tok := Token.new .static (utf8 "static") .leadingSpecial .free [.method, .field]
      let removed := ed.removeToken s.span tok twoLineWork
      (ed.addToken s.span tok twoLineWork).error = none ∧
      twoLineWork.buffer.hasToken s.target.lineFrom s.header tok = true ∧
      removed.work.buffer ≠ twoLineWork.buffer ∧
      removed.work.buffer.text = utf8 "/* static */\n\tstatic function f() \x7b\x7d" := by
  have hbuild : Language.build [] (utf8 "haxe") {} = .ok (Language.haxe {}) := rfl
  have hkeyword : ∀ b ∈ utf8 "static", b < 0x80 ∧ Byte.isSeparator b = false := by
    have hall : ((utf8 "static").all fun b => b < 0x80 && !Byte.isSeparator b) = true := by decide
    simpa using hall
  have hsees : (twoLineWork.buffer.inspect? (Language.haxe {}) twoLineMethod).any (fun s =>
      let tok := Token.new .static (utf8 "static") .leadingSpecial .free [.method, .field]
      twoLineWork.buffer.hasToken s.target.lineFrom s.header tok &&
        (removeToken ⟨Language.haxe {}, none⟩ s.span tok twoLineWork).work.buffer.text
          == utf8 "/* static */\n\tstatic function f() \x7b\x7d") = true := by decide
  obtain ⟨s, hs, hsees⟩ := (Option.any_eq_true _ _).1 hsees
  obtain ⟨hhas, htext⟩ := Bool.and_eq_true _ _ ▸ hsees
  obtain ⟨⟨hadded, -⟩, -, -, hchanges, -⟩ := addToken_removeToken_exact hbuild none
    (by decide : twoLineWork.writesLeft ≠ some 0) hs (by decide) hkeyword .static .leadingSpecial
    .free [.method, .field]
  exact ⟨hbuild, hkeyword, s, hs, hadded, hhas, hchanges.2 hhas, beq_iff_eq.1 htext⟩

end Editor

end ModifierToggle
