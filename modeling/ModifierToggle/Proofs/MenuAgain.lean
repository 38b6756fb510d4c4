import ModifierToggle.Contextual
import ModifierToggle.Proofs.CommentLexer
import ModifierToggle.Proofs.CursorCarried
import ModifierToggle.Proofs.SpanFrame
import ModifierToggle.Proofs.Toggle

set_option autoImplicit false

/-! # The menu after a toggle

There is a menu for a declaration while the cursor is before the end of its keyword, at the end of
the code on its header line, or at the end of all its code. The last two places move with the end of
the keyword when the words before it change, since nothing behind the keyword does
(`Buffer.contentEnd?_carried`), and an edit carries the cursor with the end of the keyword as well.
So a cursor on a header stays on it (`Buffer.cursorOnHeader_carried`), and after any toggle there is
a menu again, for the same declaration (`Host.menu_again`). -/

namespace ModifierToggle

/-! ## Where the lines below a gap start -/

/-- The parts of a text with a gap in it, whatever fills the gap. -/
theorem LineSite.Fits.exists_parts {s : LineSite} {x : Text} (hfits : s.Fits x) :
    ∃ above ending below, above.length = s.above.length ∧
      ∀ y, Byte.newline ∉ y → (s.fill y).parts = above ++ (y ++ ending) :: below := by
  have hline : (s.fill x).lines[s.above.length]? = some x := by
    rw [hfits.lines]
    simp
  obtain ⟨above, ending, below, hsplit, hlength, hending, -⟩ := Text.exists_part hline
  have hfree : ∀ part ∈ above ++ (x ++ ending) :: below, Byte.newline ∉ part :=
    fun part hpart => Text.newline_notMem_of_mem_splitOn (hsplit ▸ hpart)
  have hfill : s.fill x = (ofParts above ending below).fill x := by
    rw [ofParts_fill, ← hsplit, List.intercalate_splitOn]
  have hstart : s.before.length = (ofParts above ending below).before.length := by
    have hspan := hfits.span
    rw [Text.lineSpans_eq, hsplit, ← hlength, Text.extents_getElem?, Nat.zero_add] at hspan
    exact (congrArg LineSpan.start (Option.some.inj hspan)).symm
  -- the gap is at the same place, so there is the same text around it
  obtain ⟨hfront, hafter⟩ := List.append_inj hfill (by simp [hstart])
  have hbefore := (List.append_inj hfront hstart).1
  refine ⟨above, ending, below, hlength, fun y hy => ?_⟩
  rw [fill, hbefore, hafter]
  exact Text.parts_fill hfree hending hy

namespace Buffer

/-- Where the lines below a part start. -/
theorem lineStart_of_parts {b : Buffer} {above below : List Text} {part : Text}
    (h : b.text.parts = above ++ part :: below) {i : Nat} (hi : i < below.length) :
    b.lineStart (above.length + 1 + i : Nat)
      = (above.flatMap (· ++ [Byte.newline])).length + part.length + 1
        + ((below.take i).flatMap (· ++ [Byte.newline])).length := by
  have hparts : b.text.parts
      = (above ++ part :: below.take i) ++ below[i] :: below.drop (i + 1) := by
    rw [List.append_assoc, List.cons_append, List.getElem_cons_drop hi, List.take_append_drop, h]
  have hlength : (above ++ part :: below.take i).length = above.length + 1 + i := by
    simp only [List.length_append, List.length_cons, List.length_take]
    omega
  rw [lineStart, ← hlength, lineSpan_of_parts hparts]
  simp only [List.flatMap_append, List.flatMap_cons, List.length_append, List.length_singleton]
  omega

/-- **The lines below a gap move with what fills it.** -/
theorem lineStart_below {s : LineSite} {x y : Text} (hfits : s.Fits x) (hx : Byte.newline ∉ x)
    (hy : Byte.newline ∉ y) {b b' : Buffer} (ht : b.text = s.fill x) (ht' : b'.text = s.fill y)
    {k : Nat} (hk : s.above.length < k) :
    b'.lineStart k + x.length = b.lineStart k + y.length ∧
      s.before.length + x.length ≤ b.lineStart k := by
  obtain ⟨above, ending, below, hlength, hparts⟩ := hfits.exists_parts
  have hpartsX : b.text.parts = above ++ (x ++ ending) :: below := ht ▸ hparts x hx
  have hpartsY : b'.text.parts = above ++ (y ++ ending) :: below := ht' ▸ hparts y hy
  have hbefore : s.before.length = (above.flatMap (· ++ [Byte.newline])).length := by
    have hspan := hfits.lineSpan ht
    rw [← hlength, lineSpan_of_parts hpartsX] at hspan
    exact (congrArg LineSpan.start hspan).symm
  obtain ⟨i, rfl⟩ := Nat.exists_eq_add_of_lt hk
  rw [Nat.add_right_comm, ← hlength]
  by_cases hi : i < below.length
  · rw [lineStart_of_parts hpartsX hi, lineStart_of_parts hpartsY hi]
    simp only [List.length_append]
    omega
  · -- there are no such lines: they start where the text ends
    have hend : ∀ (c : Buffer) (z : Text), c.text = s.fill z →
        c.text.parts = above ++ (z ++ ending) :: below →
        c.lineStart (above.length + 1 + i : Nat)
          = s.before.length + z.length + s.after.length := by
      intro c z hc hcparts
      rw [lineStart, lineSpan_of_length_le, hc, LineSite.fill]
      · simp only [List.length_append]
      · rw [hcparts]
        simp only [List.length_append, List.length_cons]
        omega
    rw [hend b x ht hpartsX, hend b' y ht' hpartsY]
    omega

/-- A code line ends in the text. -/
theorem lineStart_add_code_le {b : Buffer} {span : Span} {l : CodeLine}
    (hl : l ∈ b.codeLines span) : b.lineStart l.number + l.code.length ≤ b.text.length := by
  obtain ⟨above, ending, below, -, -, -, -, hfill, hstart⟩ := exists_parts hl
  have hlength := length_code_le hl
  have htext := congrArg List.length hfill
  simp only [LineSite.fill, List.length_append] at htext
  omega

end Buffer

/-! ## The end of the code -/

namespace Text

variable {p : UInt8 → Bool}

theorem trimEndWhile_append {u : Text} (hu : u.trimEndWhile p = u) (v : Text) :
    (u ++ v).trimEndWhile p = u ++ v.trimEndWhile p := by
  unfold trimEndWhile at hu ⊢
  rw [List.reverse_append, List.dropWhile_append]
  split
  · next hempty => rw [hu, List.isEmpty_iff.1 hempty, List.reverse_nil, List.append_nil]
  · rw [List.reverse_append, List.reverse_reverse]

theorem trimEndWhile_concat {c : UInt8} (hc : p c = false) (u : Text) :
    (u ++ [c]).trimEndWhile p = u ++ [c] := by
  unfold trimEndWhile
  rw [List.reverse_concat, List.dropWhile_cons_of_neg (by simp [hc]), ← List.reverse_concat,
    List.reverse_reverse]

theorem length_trimEndWhile_le (p : UInt8 → Bool) (u : Text) :
    (u.trimEndWhile p).length ≤ u.length := by
  have hle : (u.reverse.dropWhile p).length ≤ u.reverse.length :=
    (List.dropWhile_sublist p).length_le
  rw [List.length_reverse] at hle
  rwa [trimEndWhile, List.length_reverse]

end Text

/-- What is left of the code behind the keyword when white space is cut off at its end. -/
def HeaderFrame.ending {lang : Language} (f : HeaderFrame lang) (p : UInt8 → Bool) : Text :=
  Text.trimEndWhile p (f.separator :: (Comment.strip .code f.tail).1)

/-- The keyword is not cut off from the code of a header. -/
theorem HeaderFrame.trimEndWhile_code {lang : Language} (f : HeaderFrame lang)
    (hlang : lang.Regular) {p : UInt8 → Bool} (hp : ∀ c, Byte.isWord c = true → p c = false)
    {ws : List Text} (hws : ∀ w ∈ ws, lang.IsModifierWord w) (s : LineSite) :
    (s.codeLine (f.line ws)).code.trimEndWhile p = (f.front ws ++ f.keyword) ++ f.ending p := by
  have hkeyword := hlang.start_word _ f.keyword_mem
  have hkept : (f.front ws ++ f.keyword).trimEndWhile p = f.front ws ++ f.keyword := by
    rcases List.eq_nil_or_concat f.keyword with hnil | ⟨k, c, hk⟩
    · exact absurd hnil (Text.ne_nil_of_isHeaderWord hkeyword)
    · have hc : p c = false := hp c (Text.isWord_of_isHeaderWord hkeyword c (by simp [hk]))
      rw [hk, List.concat_eq_append, ← List.append_assoc, Text.trimEndWhile_concat hc]
  rw [f.code_line hlang fun w hw => (hws w hw).1, ← List.append_assoc,
    Text.trimEndWhile_append hkept, ending]

/-- The gap is the place of the header of a declaration: it takes the frame, it is on a line of the
    declaration, and the lines of the declaration above it hold no words of code and leave no
    comment open. -/
structure LineSite.Heads (s : LineSite) {lang : Language} (f : HeaderFrame lang) (m : Member) :
    Prop where
  hosts : s.Hosts f
  quiet : s.Quiet m.lineFrom.toNat
  from_le : m.lineFrom ≤ s.above.length
  le_to : s.above.length ≤ m.lineTo

namespace Buffer

section

variable {lang : Language} {f : HeaderFrame lang} {s : LineSite} {m : Member} {ws vs : List Text}
  {b b' : Buffer} (hlang : lang.Regular) (hheads : s.Heads f m)
  (hws : ∀ w ∈ ws, lang.IsModifierWord w) (ht : b.text = s.fill (f.line ws))

include hlang hheads hws ht

/-- The code lines of the declaration. Those below the header depend on the frame only. -/
theorem codeLines_header :
    b.codeLines m.span
      = CodeLine.ofLines m.lineFrom.toNat false (s.above.drop m.lineFrom.toNat)
        ++ s.codeLine (f.line ws)
          :: CodeLine.ofLines (s.above.length + 1) (Comment.strip .code f.tail).2
            (s.below.take ((m.lineTo + 1).toNat - s.above.length - 1)) := by
  have hcode := LineSite.codeLines_fill_eq m.span (hheads.hosts ws hws) ht hheads.quiet
    hheads.from_le hheads.le_to
  rwa [f.stripLine_line hlang fun w hw => (hws w hw).1] at hcode

omit hlang in
theorem lineStart_header : b.lineStart s.above.length = s.before.length := by
  rw [lineStart, (hheads.hosts ws hws).lineSpan ht]

omit hlang in
theorem code_header : b.code m.lineFrom s.above.length = (s.codeLine (f.line ws)).code := by
  obtain ⟨rest, hcode, hrest⟩ := LineSite.codeLines_fill ⟨m.lineFrom, s.above.length⟩
    (hheads.hosts ws hws) ht hheads.quiet hheads.from_le (Int.le_refl _)
  rw [hrest rfl] at hcode
  have hcode' : b.codeLines ⟨m.lineFrom, (s.codeLine (f.line ws)).number⟩ = _ ++ [_] := hcode
  exact code_eq hcode'

/-- The end of the code on the header line, less white space. -/
theorem header_end {p : UInt8 → Bool} (hp : ∀ c, Byte.isWord c = true → p c = false) :
    b.lineStart s.above.length + ((s.codeLine (f.line ws)).code.trimEndWhile p).length
      = f.keywordEnd s ws + (f.ending p).length := by
  rw [lineStart_header hheads hws ht, f.trimEndWhile_code hlang hp hws, List.length_append,
    HeaderFrame.keywordEnd, Nat.add_assoc]

end

/-! ## The end of the content -/

/-- Where the content of a line ends, if it has any. -/
def lineContentEnd? (b : Buffer) (l : CodeLine) : Option Nat :=
  let content := l.code.trimEndWhile isLineTail
  if content.isEmpty then none else some (b.lineStart l.number + content.length)

theorem isLineTail_of_isWord (c : UInt8) (h : Byte.isWord c = true) : isLineTail c = false := by
  unfold isLineTail
  rw [Byte.isBlank_of_isWord h, Bool.false_or, beq_eq_false_iff_ne]
  rintro rfl
  exact absurd h (by decide)

theorem contentEnd?_le {b : Buffer} {span : Span} {c : Nat} (h : b.contentEnd? span = some c) :
    c ≤ b.text.length := by
  obtain ⟨l, hl, hend⟩ := List.exists_of_findSome?_eq_some h
  have hcode := lineStart_add_code_le (List.mem_reverse.1 hl)
  have htrim := Text.length_trimEndWhile_le isLineTail l.code
  simp only at hend
  split at hend
  · cases hend
  · obtain rfl := Option.some.inj hend
    omega

section

variable {lang : Language} {f : HeaderFrame lang} {s : LineSite} {m : Member} {ws vs : List Text}
  {b b' : Buffer} (hlang : lang.Regular) (hheads : s.Heads f m)

include hlang hheads

/-- The content ends on a line below the header, or else on the header line. -/
theorem contentEnd?_header (hws : ∀ w ∈ ws, lang.IsModifierWord w)
    (ht : b.text = s.fill (f.line ws)) :
    b.contentEnd? m.span
      = ((CodeLine.ofLines (s.above.length + 1) (Comment.strip .code f.tail).2
          (s.below.take ((m.lineTo + 1).toNat - s.above.length - 1))).reverse.findSome?
            b.lineContentEnd?).or
        (some (f.keywordEnd s ws + (f.ending isLineTail).length)) := by
  have hend := header_end hlang hheads hws ht isLineTail_of_isWord
  have hne : ((s.codeLine (f.line ws)).code.trimEndWhile isLineTail).isEmpty = false := by
    have hkeyword := Text.ne_nil_of_isHeaderWord (hlang.start_word _ f.keyword_mem)
    rw [f.trimEndWhile_code hlang isLineTail_of_isWord hws]
    simp [hkeyword]
  have hheader : b.lineContentEnd? (s.codeLine (f.line ws))
      = some (f.keywordEnd s ws + (f.ending isLineTail).length) := by
    rw [lineContentEnd?]
    simp only [hne, Bool.false_eq_true, if_false]
    exact congrArg some hend
  show (b.codeLines m.span).reverse.findSome? b.lineContentEnd? = _
  rw [codeLines_header hlang hheads hws ht, List.reverse_append, List.reverse_cons,
    List.append_assoc, List.findSome?_append, List.singleton_append, List.findSome?_cons, hheader]

omit hlang hheads in
/-- Lines that move alike have content that moves alike. -/
theorem findSome?_lineContentEnd? {d d' : Nat} {lines : List CodeLine}
    (h : ∀ l ∈ lines, b'.lineStart l.number + d = b.lineStart l.number + d') :
    (lines.findSome? b'.lineContentEnd?).map (· + d)
      = (lines.findSome? b.lineContentEnd?).map (· + d') := by
  induction lines with
  | nil => rfl
  | cons l lines ih =>
    have hl := h l List.mem_cons_self
    rw [List.findSome?_cons, List.findSome?_cons, lineContentEnd?, lineContentEnd?]
    by_cases hempty : (l.code.trimEndWhile isLineTail).isEmpty = true
    · simp only [hempty, if_true]
      exact ih fun l' hl' => h l' (List.mem_cons_of_mem _ hl')
    · simp only [hempty, Bool.false_eq_true, if_false, Option.map_some, Option.some.injEq]
      omega

/-- **The end of the content moves with the end of the keyword.** -/
theorem contentEnd?_carried (hstands : f.Stands s ws b) (hstands' : f.Stands s vs b') {c : Nat}
    (h : b.contentEnd? m.span = some c) :
    f.keywordEnd s ws ≤ c ∧
      ∃ c', b'.contentEnd? m.span = some c' ∧ c' + f.keywordEnd s ws = c + f.keywordEnd s vs := by
  have hline : ∀ {us : List Text} {d : Buffer}, f.Stands s us d → Byte.newline ∉ f.line us := by
    intro us d hd
    have hcode : s.codeLine (f.line us) ∈ d.codeLines m.span := by
      rw [codeLines_header hlang hheads hd.words hd.text]
      simp
    exact newline_notMem_text hcode
  have hlength : ∀ us, (f.line us).length
      = (f.front us ++ f.keyword).length + (f.separator :: f.tail).length := by
    intro us
    rw [f.line_eq_keyword, List.length_append]
  rw [contentEnd?_header hlang hheads hstands.words hstands.text] at h
  rw [contentEnd?_header hlang hheads hstands'.words hstands'.text]
  generalize hlines : (CodeLine.ofLines (s.above.length + 1) (Comment.strip .code f.tail).2
    (s.below.take ((m.lineTo + 1).toNat - s.above.length - 1))).reverse = lines at h ⊢
  have hbelow : ∀ l ∈ lines, b'.lineStart l.number + f.keywordEnd s ws
        = b.lineStart l.number + f.keywordEnd s vs ∧ f.keywordEnd s ws ≤ b.lineStart l.number := by
    intro l hl
    rw [← hlines, List.mem_reverse] at hl
    obtain ⟨hshift, hle⟩ := lineStart_below (hheads.hosts ws hstands.words) (hline hstands)
      (hline hstands') hstands.text hstands'.text (CodeLine.le_number_of_mem_ofLines hl)
    have hws := hlength ws
    have hvs := hlength vs
    unfold HeaderFrame.keywordEnd
    omega
  have hmoved := findSome?_lineContentEnd? fun l hl => (hbelow l hl).1
  cases hfind : lines.findSome? b.lineContentEnd? with
  | none =>
    rw [hfind, Option.map_none, Option.map_eq_none_iff] at hmoved
    rw [hfind, Option.none_or, Option.some.injEq] at h
    rw [hmoved, Option.none_or]
    exact ⟨by omega, _, rfl, by omega⟩
  | some c =>
    rw [hfind, Option.map_some] at hmoved
    obtain ⟨c', hc', hshift⟩ := Option.map_eq_some_iff.1 hmoved
    rw [hfind, Option.some_or, Option.some.injEq] at h
    subst h
    refine ⟨?_, c', by rw [hc', Option.some_or], hshift⟩
    obtain ⟨l, hl, hend⟩ := List.exists_of_findSome?_eq_some hfind
    have hle := (hbelow l hl).2
    simp only [lineContentEnd?] at hend
    split at hend
    · cases hend
    · obtain rfl := Option.some.inj hend
      omega

end

/-! ## The cursor on a header -/

section

variable {lang : Language} {f : HeaderFrame lang} {s : LineSite} {found : Found}
  {ws vs : List Text} {b b' : Buffer} (hlang : lang.Regular) (hheads : s.Heads f found.target)

include hlang hheads

/-- The places on the header where there is a menu, told from the end of the keyword. -/
theorem cursorOnHeader_iff (hheader : b.HeaderAt found s.above.length f ws)
    (ht : b.text = s.fill (f.line ws)) :
    b.cursorOnHeader lang found.target = true ↔
      b.cursor ≤ f.keywordEnd s ws ∨
      b.cursor = f.keywordEnd s ws + (f.ending Byte.isBlank).length ∨
      b.contentEnd? found.target.span = some b.cursor := by
  have hstart := lineStart_header hheads hheader.words ht
  have hend := header_end hlang hheads hheader.words ht
    fun _ => Byte.isBlank_of_isWord
  rw [cursorOnHeader, hheader.findHeader?_eq hlang]
  simp only [Bool.or_eq_true, decide_eq_true_eq, beq_iff_eq,
    code_header hheads hheader.words ht, hend, or_assoc]
  rw [hstart, HeaderFrame.keywordEnd, List.length_append, ← Nat.add_assoc, ← Nat.add_assoc,
    Nat.lt_succ_iff]

/-- A cursor on the header is in the text. -/
theorem cursor_le_of_cursorOnHeader (hheader : b.HeaderAt found s.above.length f ws)
    (ht : b.text = s.fill (f.line ws)) (h : b.cursorOnHeader lang found.target = true) :
    b.cursor ≤ b.text.length := by
  have hcode : s.codeLine (f.line ws) ∈ b.codeLines found.target.span := by
    rw [codeLines_header hlang hheads hheader.words ht]
    simp
  have hle : b.lineStart s.above.length + (s.codeLine (f.line ws)).code.length ≤ b.text.length :=
    lineStart_add_code_le hcode
  have htrim := Text.length_trimEndWhile_le Byte.isBlank (s.codeLine (f.line ws)).code
  have hend := header_end hlang hheads hheader.words ht
    fun _ => Byte.isBlank_of_isWord
  rcases (cursorOnHeader_iff hlang hheads hheader ht).1 h with hc | hc | hc
  · omega
  · omega
  · exact contentEnd?_le hc

/-- **A cursor on the header stays on it** when it is carried along with the end of the keyword. -/
theorem cursorOnHeader_carried (hheader : b.HeaderAt found s.above.length f ws)
    (hheader' : b'.HeaderAt found s.above.length f vs) (hstands : f.Stands s ws b)
    (hstands' : f.Stands s vs b')
    (hcarried : Carried (f.keywordEnd s ws) b.cursor (f.keywordEnd s vs) b'.cursor)
    (h : b.cursorOnHeader lang found.target = true) :
    b'.cursorOnHeader lang found.target = true := by
  rw [cursorOnHeader_iff hlang hheads hheader' hstands'.text]
  rcases (cursorOnHeader_iff hlang hheads hheader hstands.text).1 h with hc | hc | hc
  · exact Or.inl (hcarried.upTo hc)
  · have hshift := hcarried.onward (by omega)
    exact Or.inr (Or.inl (by omega))
  · obtain ⟨hle, c', hc', hmoved⟩ := contentEnd?_carried hlang hheads hstands hstands' hc
    have hshift := hcarried.onward hle
    have heq : b'.cursor = c' := by omega
    exact Or.inr (Or.inr (heq ▸ hc'))

end

end Buffer

/-! ## There is always something to offer -/

namespace Inspection

variable {s : Inspection} {lang : Language}

/-- A visibility that the declaration does not have makes an entry. -/
theorem visibilityEntries_ne_nil {vis : Text} (hne : vis ≠ []) (hother : vis ≠ s.visibility)
    {index : Nat} {seen names : List Text} (hnew : vis ∉ seen) (h : vis ∈ names) :
    s.visibilityEntries lang index seen names ≠ [] := by
  induction names generalizing index with
  | nil => cases h
  | cons first rest ih =>
    rw [visibilityEntries]
    split
    · next hskip =>
      rcases List.mem_cons.1 h with rfl | h
      · simp [hne, hother, hnew] at hskip
      · exact ih h
    · exact List.cons_ne_nil _ _

/-- Of two visibilities a declaration has one at most, and the other is offered. -/
theorem menu_ne_nil (hkind : s.kind ≠ .none) {v w : Text} (hv : v ∈ lang.visibilities s.kind)
    (hw : w ∈ lang.visibilities s.kind) (hvne : v ≠ []) (hwne : w ≠ []) (hvw : v ≠ w) :
    s.menu lang ≠ [] := by
  have hactions : s.visibilityActions lang ≠ [] := by
    obtain ⟨vis, hvis, hne, hother⟩ : ∃ vis ∈ lang.visibilities s.kind, vis ≠ [] ∧
        vis ≠ s.visibility := by
      by_cases hsame : v = s.visibility
      · exact ⟨w, hw, hwne, fun h => hvw (hsame.trans h.symm)⟩
      · exact ⟨v, hv, hvne, hsame⟩
    have hentries : s.visibilityEntries lang 0 [] (s.visibilityNames lang) ≠ [] :=
      visibilityEntries_ne_nil hne hother List.not_mem_nil (List.mem_append_left _ hvis)
    intro hnil
    exact hentries (List.nil_perm.1 (hnil ▸ Action.sort_perm _))
  unfold menu
  split
  · exact fun h => hactions (List.append_eq_nil_iff.1 h).1
  · exact hactions
  · exact fun h => hactions (List.append_eq_nil_iff.1 h).1
  · exact fun h => hactions (List.append_eq_nil_iff.1 h).1
  · next hnone => exact absurd hnone hkind

end Inspection

/-- Every table that can be built has two visibilities for every kind of declaration. -/
theorem Language.build_visibilities {name base : Text} {opts : LanguageOptions} {lang : Language}
    (h : build name base opts = .ok lang) (kind : Kind) :
    ∃ v ∈ lang.visibilities kind, ∃ w ∈ lang.visibilities kind, v ≠ [] ∧ w ≠ [] ∧ v ≠ w := by
  -- no setting has a say in them
  obtain ⟨n, rfl | rfl⟩ := build_cases h
  · show ∃ v ∈ (haxe {}).visibilities kind, ∃ w ∈ (haxe {}).visibilities kind, _
    cases kind <;> decide
  · show ∃ v ∈ (actionScript3 {}).visibilities kind, ∃ w ∈ (actionScript3 {}).visibilities kind, _
    cases kind <;> decide

/-- What is inspected is the declaration with the header. -/
theorem Buffer.HeaderAt.of_inspect? {lang : Language} {f : HeaderFrame lang} {ws : List Text}
    {found : Found} {n : Nat} {b : Buffer} (h : b.HeaderAt found n f ws) (hlang : lang.Regular)
    {s : Inspection} (hs : b.inspect? lang found = some s) :
    found.kind ≠ .none ∧ s.found = found ∧ s.header.line = n ∧
      s.span = ⟨found.target.lineFrom, n⟩ := by
  have hkind : found.kind ≠ .none := by
    intro hnone
    rw [Buffer.inspect?, if_pos hnone] at hs
    cases hs
  obtain ⟨s', hs', hfound, -, hline, -⟩ := h.exists_inspection hlang hkind
  obtain rfl : s' = s := Option.some.inj (hs'.symm.trans hs)
  exact ⟨hkind, hfound, hline, by rw [Inspection.span, Inspection.target, hfound, hline]⟩

/-- **A toggle leaves the cursor on the header.** Whatever entry of the menu is applied, there is no
    error, the header stands on its line with other words, and the cursor is on it and on the line
    of the text where it was. -/
theorem Editor.apply_staysOnHeader {name base : Text} {opts : LanguageOptions} {lang : Language}
    (hbuild : Language.build name base opts = .ok lang) (hclean : lang.CleanAccess)
    {found : Found} {n : Nat} {f : HeaderFrame lang} {ws : List Text} {w : Work}
    (hw : w.writesLeft = none) (hheader : w.buffer.HeaderAt found n f ws)
    (hcursor : w.buffer.cursorOnHeader lang found.target = true) {s : Inspection}
    (hfound : s.found = found) (hline : s.header.line = n) {a : Action} (ha : a ∈ s.menu lang)
    (scope : Option ToggleScope) :
    let o := apply ⟨lang, scope⟩ a w
    o.error = none ∧ (∃ vs, o.work.buffer.HeaderAt found n f vs) ∧
      o.work.buffer.cursorOnHeader lang found.target = true ∧
      o.work.buffer.lineAt o.work.buffer.cursor = w.buffer.lineAt w.buffer.cursor := by
  intro o
  have hlang := (Language.build_orderly hbuild hclean).toRegular
  obtain ⟨htarget, hjob⟩ := Inspection.offers_of_mem_menu ha
  obtain ⟨site, rfl, hfill, hhost, hquiet⟩ := hheader.exists_site
  have hheads : site.Heads f found.target := ⟨hhost, hquiet, hheader.from_le, hheader.le_to⟩
  have hends : site.Ends s.span := by
    rw [Inspection.span, Inspection.target, hfound, hline]
    exact ⟨hquiet, hheader.from_le, rfl⟩
  have hstands : f.Stands site ws w.buffer := ⟨hheader.words, hfill,
    Buffer.cursor_le_of_cursorOnHeader hlang hheads hheader hfill hcursor⟩
  have hrewrites : (apply ⟨lang, scope⟩ a).Rewrites site (f.line ws) _ :=
    apply_rewrites hlang hhost hheader.words htarget hends hjob.ne_unknown hjob.isVisibility
  have hcarries : (apply ⟨lang, scope⟩ a).Carries site f :=
    apply_carries hlang hhost htarget hends hjob.isVisibility
  have hnewline : a.job = .changeAccess → Byte.newline ∉ a.visibility := by
    intro haccess hmem
    have hword := (hlang.visibility_word (hjob.isVisibility haccess)).1
    exact absurd (Text.isWord_of_isHeaderWord hword _ hmem) (by decide)
  obtain ⟨vs, hstands', hcarried⟩ := hcarries w ws hstands
  have hheader' : o.work.buffer.HeaderAt found site.above.length f vs := by
    refine hheader.rewrite hstands'.words ?_
    rw [(hhost ws hheader.words).withLine hfill]
    exact hstands'.text
  exact ⟨(hrewrites w hw hfill).1, ⟨vs, hheader'⟩,
    Buffer.cursorOnHeader_carried hlang hheads hheader hheader' hstands hstands' hcarried hcursor,
    (apply_reshapes hbuild scope htarget hnewline w).lineAt_eq⟩

namespace Host

/-- There is a menu if the cursor is on the header of a declaration that can be inspected, and there
    is something to offer for it. -/
theorem contextual?_eq_some_iff {registry : Registry} {language : Text} {lang : Language}
    (hlookup : registry.lookup? language = some lang) {b : Buffer} {model : FileModel}
    {items : List MenuItem} :
    contextual? registry ⟨language, some b, some model⟩ = some items ↔
      ∃ found s, declaration? lang b model = some found ∧ b.inspect? lang found = some s ∧
        s.menu lang ≠ [] ∧ items = (s.menu lang).map (⟨·, lang⟩) := by
  simp only [contextual?, hlookup, Option.bind_eq_bind, Option.bind_some, Option.bind_eq_some_iff]
  constructor
  · rintro ⟨found, hfound, s, hs, hitems⟩
    split at hitems
    · cases hitems
    · next hmenu =>
      exact ⟨found, s, hfound, hs, by simpa using hmenu, (Option.some.inj hitems).symm⟩
  · rintro ⟨found, s, hfound, hs, hmenu, rfl⟩
    exact ⟨found, hfound, s, hs, if_neg (by simpa using hmenu)⟩

/-- The entries of a menu are for the header span of the inspected declaration. -/
theorem span_of_mem_menu {lang : Language} {s : Inspection} {item : MenuItem}
    (h : item ∈ (s.menu lang).map (⟨·, lang⟩)) :
    item.action.target.map Inspection.span = some s.span := by
  obtain ⟨a, ha, rfl⟩ := List.mem_map.1 h
  rw [(Inspection.offers_of_mem_menu ha).1]
  rfl

/-- **After any toggle there is a menu again.** In a table that can be built, with clean access
    names, let there be a menu for a declaration whose header is in its usual form. Invoking any of
    its entries does not fail, and afterwards there is a menu again: for the same class and member,
    whose header is on the same line and in its usual form. The entries of both menus act on the
    same lines. -/
theorem menu_again {name base : Text} {opts : LanguageOptions} {lang : Language}
    (hbuild : Language.build name base opts = .ok lang) (hclean : lang.CleanAccess)
    {registry : Registry} {language : Text} (hlookup : registry.lookup? language = some lang)
    {b : Buffer} {model : FileModel} {items : List MenuItem}
    (hitems : contextual? registry ⟨language, some b, some model⟩ = some items)
    {found : Found} (hfound : model.locate? (b.lineAt b.cursor) = some found)
    {n : Nat} {f : HeaderFrame lang} {ws : List Text} (hheader : b.HeaderAt found n f ws)
    {item : MenuItem} (hitem : item ∈ items) {w : Work} (hw : w.writesLeft = none)
    (hb : w.buffer = b) :
    let o := item.invoke w
    let b' := o.work.buffer
    o.error = none ∧
      ∃ items', contextual? registry ⟨language, some b', some model⟩ = some items' ∧
        declaration? lang b model = some found ∧ declaration? lang b' model = some found ∧
        (b.findHeader? lang found.target.span).map (·.line) = some n ∧
        (b'.findHeader? lang found.target.span).map (·.line) = some n ∧
        (∃ vs, b'.HeaderAt found n f vs) ∧
        ∀ entry ∈ items ++ items',
          entry.action.target.map Inspection.span = some ⟨found.target.lineFrom, n⟩ := by
  intro o b'
  subst hb
  have hlang := (Language.build_orderly hbuild hclean).toRegular
  obtain ⟨found', s, hdeclaration, hs, -, rfl⟩ := (contextual?_eq_some_iff hlookup).1 hitems
  obtain ⟨hlocate, hcursor⟩ := Option.filter_eq_some_iff.1 hdeclaration
  obtain rfl : found = found' := Option.some.inj (hfound.symm.trans hlocate)
  obtain ⟨hkind, hsfound, hsline, hspan⟩ := hheader.of_inspect? hlang hs
  obtain ⟨a, ha, rfl⟩ := List.mem_map.1 hitem
  obtain ⟨herror, ⟨vs, hheader'⟩, hcursor', hlineAt⟩ := Editor.apply_staysOnHeader hbuild hclean hw
    hheader hcursor hsfound hsline ha none
  have hdeclaration' : declaration? lang b' model = some found := by
    refine Option.filter_eq_some_iff.2 ⟨?_, hcursor'⟩
    exact (congrArg (fun line : Nat => model.locate? line) hlineAt).trans hlocate
  obtain ⟨s', hs', -, hskind', -⟩ := hheader'.exists_inspection hlang hkind
  obtain ⟨-, -, -, hspan'⟩ := hheader'.of_inspect? hlang hs'
  have hmenu' : s'.menu lang ≠ [] := by
    obtain ⟨v, hv, u, hu, hvne, hune, hvu⟩ := Language.build_visibilities hbuild s'.kind
    exact Inspection.menu_ne_nil (hskind' ▸ hkind) hv hu hvne hune hvu
  have hitems' := (contextual?_eq_some_iff hlookup).2 ⟨found, s', hdeclaration', hs', hmenu', rfl⟩
  refine ⟨herror, _, hitems', hdeclaration, hdeclaration', ?_, ?_, ⟨vs, hheader'⟩,
    fun entry hentry => ?_⟩
  · exact congrArg (Option.map Header.line) (hheader.findHeader?_eq hlang)
  · exact congrArg (Option.map Header.line) (hheader'.findHeader?_eq hlang)
  · rcases List.mem_append.1 hentry with hentry | hentry
    · rw [span_of_mem_menu hentry, hspan]
    · rw [span_of_mem_menu hentry, hspan']

/-- A method with a comment above it, where the cursor is behind the first byte of the keyword. -/
def methodWork : Work :=
  { buffer :=
      { text := utf8 "class A \x7b\n /* not static,\n    public */\n"
          ++ Editor.finalMethodFrame.line [] ++ utf8 "\n\x7d"
        cursor := 42 } }

/-- The method in its class, as the engine reports them. -/
def methodFound : Found where
  enclosing :=
    { declaration := { name := utf8 "A", lineFrom := 0, lineTo := 4, flags := .classFlag }
      members := [{ name := utf8 "f", lineFrom := 1, lineTo := 3, flags := .function }] }
  member := some { name := utf8 "f", lineFrom := 1, lineTo := 3, flags := .function }

/-- The only table there is has an access name of the user's own. -/
def internalRegistry : Registry := ⟨[Language.actionScript3 Editor.internalAccess]⟩

/-- `final` begins like `function`, so that making the method final inserts text behind the first
    byte of the keyword, where the cursor is. There is a menu again, for the same method. -/
theorem menu_again_final :
    Language.build [] (utf8 "as3") Editor.internalAccess
      = .ok (Language.actionScript3 Editor.internalAccess) ∧
    (Language.actionScript3 Editor.internalAccess).CleanAccess ∧
    methodWork.buffer.HeaderAt methodFound 3 Editor.finalMethodFrame [] ∧
    ∃ items item items',
      contextual? internalRegistry
          ⟨utf8 "as3", some methodWork.buffer, some { classes := [methodFound.enclosing] }⟩
        = some items ∧
      item ∈ items ∧
      let b' := (item.invoke methodWork).work.buffer
      b'.text = utf8 "class A \x7b\n /* not static,\n    public */\n"
        ++ Editor.finalMethodFrame.line [utf8 "final"] ++ utf8 "\n\x7d" ∧
      b'.cursor = 48 ∧
      contextual? internalRegistry
          ⟨utf8 "as3", some b', some { classes := [methodFound.enclosing] }⟩
        = some items' ∧
      declaration? (Language.actionScript3 Editor.internalAccess) b'
          { classes := [methodFound.enclosing] }
        = some methodFound ∧
      ∀ entry ∈ items ++ items', entry.action.target.map Inspection.span = some ⟨1, 3⟩ := by
  have hbuild : Language.build [] (utf8 "as3") Editor.internalAccess
      = .ok (Language.actionScript3 Editor.internalAccess) := rfl
  have hclean : (Language.actionScript3 Editor.internalAccess).CleanAccess := by
    show ∀ v ∈ [utf8 "mx_internal"], _
    decide
  have hlookup : internalRegistry.lookup? (utf8 "as3")
      = some (Language.actionScript3 Editor.internalAccess) := by decide
  have hfound : FileModel.locate? { classes := [methodFound.enclosing] }
      (methodWork.buffer.lineAt methodWork.buffer.cursor) = some methodFound := by decide
  have hnoCode : (Comment.stripLines false ((methodWork.buffer.text.lines.take 3).drop 1)).all
      (fun code => code.all (!Byte.isWord ·)) = true := by decide
  have hheader : methodWork.buffer.HeaderAt methodFound 3 Editor.finalMethodFrame [] := by
    refine ⟨by decide, by decide, by decide, by decide, fun code hcode x hx => ?_, by decide⟩
    simpa using List.all_eq_true.1 (List.all_eq_true.1 hnoCode code hcode) x hx
  have hedit : (contextual? internalRegistry
      ⟨utf8 "as3", some methodWork.buffer, some { classes := [methodFound.enclosing] }⟩).any
      (fun items => ∃ item ∈ items,
        (item.invoke methodWork).work.buffer.text
          = utf8 "class A \x7b\n /* not static,\n    public */\n"
            ++ Editor.finalMethodFrame.line [utf8 "final"] ++ utf8 "\n\x7d" ∧
        (item.invoke methodWork).work.buffer.cursor = 48) = true := by decide
  obtain ⟨items, hitems, hedit⟩ := (Option.any_eq_true _ _).1 hedit
  obtain ⟨item, hitem, htext, hcursor⟩ := of_decide_eq_true hedit
  obtain ⟨-, items', hitems', -, hdeclaration, -, -, -, hspan⟩ := menu_again hbuild hclean
    hlookup hitems hfound hheader hitem (w := methodWork) rfl rfl
  exact ⟨hbuild, hclean, hheader, items, item, items', hitems, hitem, htext, hcursor, hitems',
    hdeclaration, hspan⟩

end Host

end ModifierToggle
