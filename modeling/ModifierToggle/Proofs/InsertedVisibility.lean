import ModifierToggle.Proofs.InsertedText
import ModifierToggle.Proofs.LineExchange
import ModifierToggle.Proofs.VisibilityAgreement

set_option autoImplicit false

/-! # Inserting a visibility

A declaration that spells no visibility out gets one in front of its modifiers, or rather in front
of the first byte of the header line that a modifier can start with. That byte is looked for in the
text of the line, not in its code, so it may stand in a comment or in the middle of a word. What
happens then to the header line (`Language.insertion_cases`) is what happens to the declaration, and
`Editor.changeAccess_inserts_iff` says when inserting a visibility has its effect. -/

namespace ModifierToggle

open Comment (LexState stripLine openAfter)
open Text (EndsOutsideWord FirstStanding)

/-! ## Inspecting a declaration with another header line -/

namespace Buffer

variable {b b' : Buffer} {lang : Language}

theorem findHeader?_of_codeLines {span : Span} {above : List CodeLine} {l : CodeLine}
    {at_ : Keyword.Occurrence} (hlines : b.codeLines ⟨span.first, l.number⟩ = above ++ [l])
    (habove : ∀ l' ∈ above, l'.start? lang = none) (hat : l.start? lang = some at_)
    (hlast : (l.number : Int) ≤ span.last) :
    b.findHeader? lang span = some ⟨l.number, at_.start, at_.next⟩ := by
  refine findHeader?_mono hlast ?_
  have hnone : above.findSome? (fun l => (l.start? lang).map fun at_ =>
      (⟨l.number, at_.start, at_.next⟩ : Header)) = none := by
    rw [List.findSome?_eq_none_iff]
    intro l' hl'
    rw [habove l' hl', Option.map_none]
  rw [findHeader?, hlines, List.findSome?_append, hnone, Option.none_or, List.findSome?_cons, hat]
  rfl

/-- What inspection reports where the header is found elsewhere. -/
theorem inspect?_of_findHeader? {found : Found} {s : Inspection}
    (hs : b.inspect? lang found = some s) {header : Header}
    (hheader : b'.findHeader? lang s.target.span = some header) :
    b'.inspect? lang found = some { s with
      header, visibility := b'.visibilityOf lang s.kind s.target header
      present := Modifier.all.filter (b'.hasModifier lang s.target header) } := by
  unfold inspect? at hs ⊢
  split at hs
  · cases hs
  · next hkind =>
    obtain ⟨header', -, rfl⟩ := Option.map_eq_some_iff.1 hs
    have hheader' : b'.findHeader? lang found.target.span = some header := hheader
    rw [if_neg hkind, hheader', Option.map_some]
    rfl

theorem present_of_inspect? {found : Found} {s : Inspection}
    (hs : b.inspect? lang found = some s) :
    s.present = Modifier.all.filter (b.hasModifier lang s.target s.header) := by
  unfold inspect? at hs
  split at hs
  · cases hs
  · obtain ⟨header, -, rfl⟩ := Option.map_eq_some_iff.1 hs
    rfl

theorem has_of_inspect? {found : Found} {s : Inspection} (hs : b.inspect? lang found = some s)
    (m : Modifier) : s.has m = b.hasModifier lang s.target s.header m := by
  have hall : m ∈ Modifier.all := by cases m <;> decide
  rw [Inspection.has, present_of_inspect? hs, Bool.eq_iff_iff, List.contains_iff_mem,
    List.mem_filter]
  exact and_iff_right hall

/-- What inspection reports where the header has moved and the tokens have stayed. -/
theorem inspect?_of_header {found : Found} {s : Inspection} (hs : b.inspect? lang found = some s)
    {header : Header} (hheader : b'.findHeader? lang s.target.span = some header)
    (htokens : ∀ tok ∈ lang.tokens, b'.hasToken s.target.lineFrom header tok
      = b.hasToken s.target.lineFrom s.header tok) :
    b'.inspect? lang found = some { s with
      header, visibility := b'.visibilityOf lang s.kind s.target header } := by
  have hmodifier : b'.hasModifier lang s.target header = b.hasModifier lang s.target s.header := by
    funext m
    rw [hasModifier, hasModifier]
    cases htok : lang.token? m with
    | none => rfl
    | some tok =>
      simp only [Option.any_some, htokens tok (List.mem_of_find?_eq_some htok)]
  rw [inspect?_of_findHeader? hs hheader, hmodifier, ← present_of_inspect? hs]

/-- A token is seen in a line as before if it is not the word that the line takes. -/
theorem hasToken_of_takesWord (hlang : lang.Customary) {target : Member} {header header' : Header}
    (hheader : b.findHeader? lang target.span = some header)
    (hheader' : b'.findHeader? lang target.span = some header') {above : List CodeLine}
    {l l' : CodeLine} (hlines : b.codeLines ⟨target.lineFrom, header.line⟩ = above ++ [l])
    (hlines' : b'.codeLines ⟨target.lineFrom, header'.line⟩ = above ++ [l'])
    {v : Text} (hv : lang.isVisibility v = true) (htakes : lang.TakesWord l.code l'.code v)
    {tok : Token} (htok : tok ∈ lang.tokens) :
    b'.hasToken target.lineFrom header' tok = b.hasToken target.lineFrom header tok := by
  have hline :
      (tok.find? (l'.searchable lang)).isSome = (tok.find? (l.searchable lang)).isSome := by
    rw [Bool.eq_iff_iff]
    show (tok.find? (lang.modifierPart l'.code)).isSome = true
      ↔ (tok.find? (lang.modifierPart l.code)).isSome = true
    simp only [Language.find?_modifierPart_isSome hlang htok]
    obtain ⟨ws, ws', hwords, hwords'⟩ := htakes.words
    have hne : tok.keyword ≠ v := by
      rintro rfl
      rw [hlang.token_notVisibility tok htok] at hv
      cases hv
    simp [hwords, hwords', hne]
  rw [hasToken_eq hheader, hasToken_eq hheader', hlines, hlines', List.any_append, List.any_append]
  simp only [List.any_cons, List.any_nil, hline]

/-- **A declaration whose header line takes a visibility has it, and its modifiers stay.** -/
theorem inspect?_of_takesWord (hlang : lang.Customary) {found : Found} {s : Inspection}
    (hs : b.inspect? lang found = some s) (haccess : found.target.visibility = [])
    {above : List CodeLine} {l l' : CodeLine} (hlines : b.codeLines s.span = above ++ [l])
    (hlines' : b'.codeLines s.span = above ++ [l']) (hnumber : l'.number = l.number)
    {v : Text} (hv : lang.isVisibility v = true) (htakes : lang.TakesWord l.code l'.code v)
    (hnone : lang.findVisibility? (lang.modifierPart l.code) = none) :
    b'.inspect? lang found = some { s with
      header := ⟨s.header.line, s.header.start + (v.length + 1), s.header.stop + (v.length + 1)⟩
      visibility := v } := by
  have hfound := findHeader?_of_inspect? hs
  obtain ⟨above', l₀, at_, hsplit, habove, hat, hheader⟩ := findHeader?_split hfound
  obtain ⟨rfl, heq⟩ := List.append_inj' (hsplit.symm.trans hlines) rfl
  obtain rfl := List.singleton_inj.1 heq
  have hline : s.header.line = l₀.number := by rw [hheader]
  have hat' : l'.start? lang = some (at_.shift (v.length + 1)) := by
    rw [CodeLine.start?, htakes.start]
    exact congrArg _ hat
  have hlast : (l'.number : Int) ≤ s.target.span.last := by
    rw [hnumber, ← hline]
    exact findHeader?_le hfound
  have hlines'' : b'.codeLines ⟨s.target.span.first, l'.number⟩ = above' ++ [l'] := by
    rw [hnumber, ← hline]
    exact hlines'
  have hfound' := findHeader?_of_codeLines hlines'' habove hat' hlast
  have htarget : s.target.visibility = [] := by
    rw [Inspection.target, (inspect?_eq_some hs).1, haccess]
  -- none of the words before the new one is a visibility
  have hfirst : (lang.modifierWords l'.code).find? lang.isVisibility = some v := by
    rw [Language.findVisibility?_eq_none_iff hlang] at hnone
    obtain ⟨ws, ws', hwords, hwords'⟩ := htakes.words
    rw [hwords] at hnone
    have hmiss : ws.find? lang.isVisibility = none := by
      rw [List.find?_eq_none]
      intro w hw
      rw [hnone w (List.mem_append_left _ hw)]
      decide
    rw [hwords', List.find?_append, hmiss, Option.none_or, List.find?_cons, hv]
  have hvisibility : b'.visibilityOf lang s.kind s.target
      ⟨l'.number, (at_.shift (v.length + 1)).start, (at_.shift (v.length + 1)).next⟩ = v := by
    rw [visibilityOf_eq hlang.plainVisibilities hlines'' hat', htarget, hfirst]
    rfl
  have hinspect := inspect?_of_header hs hfound' fun tok htok =>
    hasToken_of_takesWord hlang hfound hfound' hsplit hlines'' hv htakes htok
  rw [hinspect, hvisibility, hheader, hnumber]
  rfl

end Buffer

/-! ## Changing the visibility -/

/-- A byte of the last line of a span is outside comments, where the lines of the span are read one
    after the other. -/
def Buffer.InCode (b : Buffer) (span : Span) (i : Nat) : Prop :=
  (LexState.code.afterLines (b.spanLines ⟨span.first, span.last - 1⟩)).placeAt (b.line span.last) i
    = .code

/-- A word of the code starts at a byte of the last line of a span. -/
structure Buffer.StartsCodeWord (b : Buffer) (span : Span) (i : Nat) : Prop where
  inCode : b.InCode span i
  outsideWord : EndsOutsideWord ((b.line span.last).take i)
  isWord : ∃ c, (b.line span.last)[i]? = some c ∧ Byte.isWord c = true

instance (b : Buffer) (span : Span) (i : Nat) : Decidable (b.InCode span i) :=
  inferInstanceAs (Decidable (_ = _))

instance (b : Buffer) (span : Span) (i : Nat) : Decidable (b.StartsCodeWord span i) :=
  decidable_of_iff (b.InCode span i ∧ EndsOutsideWord ((b.line span.last).take i) ∧
      (b.line span.last)[i]?.any Byte.isWord = true)
    ⟨fun h => ⟨h.1, h.2.1, (Option.any_eq_true _ _).1 h.2.2⟩,
      fun h => ⟨h.inCode, h.outsideWord, (Option.any_eq_true _ _).2 h.isWord⟩⟩

/-- The header line of a declaration, cut where a visibility goes, and the lines above it. -/
structure Buffer.HeaderCut (b : Buffer) (lang : Language) (s : Inspection) (above : List CodeLine)
    (l : CodeLine) (u : Text) (c : UInt8) (t : Text) : Prop where
  lines : b.codeLines s.span = above ++ [l]
  number : l.number = s.header.line
  line : b.line s.header.line = l.text
  code : l.code = (stripLine (openAfter false (above.map (·.text))) l.text).1
  text : l.text = u ++ c :: t
  cut : LineEdit.firstModifierByte l.text = u.length
  isWord : Byte.isWord c = true
  start : ∃ front keyword after,
    FirstStanding (· ∈ lang.startWords) false l.code front keyword after ∧ u.length ≤ front.length
  above_start : ∀ l' ∈ above, l'.start? lang = none
  newline : Byte.newline ∉ l.text

theorem Byte.isWord_of_startsModifier {b : UInt8} (h : Byte.startsModifier b = true) :
    Byte.isWord b = true := by
  simp only [Byte.startsModifier, Byte.isWord, Byte.isPlainWord, Bool.or_eq_true] at h ⊢
  rcases h with (h | h) | h <;> simp [h]

theorem Buffer.exists_headerCut {name base : Text} {opts : LanguageOptions} {lang : Language}
    (hbuild : Language.build name base opts = .ok lang) (hclean : lang.CleanAccess) {b : Buffer}
    {found : Found} {s : Inspection} (hs : b.inspect? lang found = some s) :
    ∃ above l u c t, b.HeaderCut lang s above l u c t := by
  have hlang := Language.build_customary hbuild hclean
  obtain ⟨above, l, at_, hsplit, habove, hat, hheader⟩ :=
    findHeader?_split (findHeader?_of_inspect? hs)
  have hlines : b.codeLines s.span = above ++ [l] := hsplit
  have hnumber : l.number = s.header.line := by rw [hheader]
  obtain ⟨-, hline, -, hcode⟩ := codeLines_split hlines
  have hl : l ∈ b.codeLines s.span := by simp [hlines]
  obtain ⟨u, c, t, htext, hu, -, hc, hle⟩ := (aligned hbuild hl).firstModifierByte_split hat
  obtain ⟨front, keyword, after, hfirst, hfront⟩ := Language.exists_first_start hlang hat
  obtain ⟨-, -, -, hnewline, -⟩ := Text.exists_site hline
  refine ⟨above, l, u, c, t, hlines, hnumber, ?_, hcode, htext, hu.symm,
    Byte.isWord_of_startsModifier hc, ⟨front, keyword, after, hfirst, by omega⟩, habove, hnewline⟩
  rw [← hnumber, line_of_lines hline]

namespace Buffer.HeaderCut

variable {b : Buffer} {lang : Language} {s : Inspection} {above : List CodeLine} {l : CodeLine}
  {u t : Text} {c : UInt8} (hcut : b.HeaderCut lang s above l u c t)

include hcut

theorem inCode_iff (hupper : b.spanLines ⟨s.span.first, s.span.last - 1⟩ = above.map (·.text)) :
    b.InCode s.span u.length ↔ (LexState.entering (openAfter false (above.map (·.text)))).placeAt
      (u ++ c :: t) u.length = .code := by
  have hline : b.line s.span.last = u ++ c :: t := hcut.line.trans hcut.text
  have hstate := Comment.afterLines_eq false (above.map (·.text))
  rw [InCode, hupper, hline, ← hstate]
  rfl

theorem startsCodeWord_iff : b.StartsCodeWord s.span u.length
    ↔ b.InCode s.span u.length ∧ EndsOutsideWord u := by
  have hline : b.line s.span.last = u ++ c :: t := hcut.line.trans hcut.text
  constructor
  · rintro ⟨hcode, hends, -⟩
    rw [hline, List.take_left] at hends
    exact ⟨hcode, hends⟩
  · rintro ⟨hcode, hends⟩
    refine ⟨hcode, ?_, c, ?_, hcut.isWord⟩
    · rwa [hline, List.take_left]
    · rw [hline]
      simp

end Buffer.HeaderCut

namespace Editor

variable {lang : Language} (hlang : lang.Customary) (scope : Option ToggleScope) {s : Inspection}
  {w : Work} (hw : w.writesLeft ≠ some 0) {above : List CodeLine} {l : CodeLine} {u t : Text}
  {c : UInt8} (hcut : w.buffer.HeaderCut lang s above l u c t)
  (hnone : lang.firstVisibility? (w.buffer.codeLines s.span) = none) {vis : Text}
  (hvis : lang.isVisibility vis = true) (hkeyword : lang.visibilityKeyword s.kind vis ≠ [])

include hlang hw hcut hnone hkeyword in
/-- Where no visibility is spelled out, the new one is put into the header line. -/
theorem changeAccess_cut :
    let o := (⟨lang, scope⟩ : Editor).changeAccess s.span s.kind vis w
    o.error = none ∧ o.work.buffer.text
      = w.buffer.withLine l.number (u ++ (vis ++ Byte.space :: c :: t)) := by
  intro o
  obtain ⟨front, keyword, after, hfirst, -⟩ := hcut.start
  obtain ⟨at_, hat, -⟩ := Language.findStart?_first hlang hfirst
  have hne : l.text ≠ [] := by simp [hcut.text]
  have ho : o = _ := changeAccess_of_none hnone hcut.lines hcut.above_start hat hne s.kind vis
  have hvis : lang.visibilityKeyword s.kind vis = vis := by
    rcases HeaderWords.visibilityKeyword_cases lang s.kind vis with ⟨hnil, -⟩ | hsame
    · exact absurd hnil hkeyword
    · exact hsame
  have hnew : LineEdit.insertAt l.text vis u.length = u ++ (vis ++ Byte.space :: c :: t) := by
    rw [hcut.text, LineEdit.insertAt_length]
    simp
  rw [if_neg (by simpa using hkeyword), hvis, hcut.cut, hnew] at ho
  obtain ⟨-, hline, -, -⟩ := Buffer.codeLines_split hcut.lines
  rw [ho]
  exact Step.setLine_withLine scope hw hline _

include hlang hw hcut hnone hkeyword hvis in
/-- The lines of the header span with the visibility put in. -/
theorem codeLines_changeAccess_cut :
    let b := ((⟨lang, scope⟩ : Editor).changeAccess s.span s.kind vis w).work.buffer
    let y := u ++ (vis ++ Byte.space :: c :: t)
    w.buffer.spanLines ⟨s.span.first, s.span.last - 1⟩ = above.map (·.text) ∧
      b.codeLines s.span
        = above ++ [⟨l.number, y, (stripLine (openAfter false (above.map (·.text))) y).1⟩] := by
  intro b y
  have hspan : s.span = ⟨s.span.first, l.number⟩ := by
    rw [hcut.number]
    rfl
  have hlines := hcut.lines
  have htext := (changeAccess_cut hlang scope hw hcut hnone hkeyword).2
  have hword := Text.isWord_of_isHeaderWord (hlang.visibility_word hvis).1
  have hnewline : Byte.newline ∉ y := by
    have hold := hcut.newline
    have hvis' : Byte.newline ∉ vis := fun hmem => absurd (hword _ hmem) (by decide)
    rw [hcut.text] at hold
    simp only [y, List.mem_append, List.mem_cons, not_or] at hold ⊢
    exact ⟨hold.1, hvis', by decide, hold.2⟩
  have hlast : y.getLast? = l.text.getLast? := by
    rw [hcut.text]
    exact Text.getLast?_insert u vis c t
  rw [hspan] at hlines ⊢
  exact Buffer.codeLines_withLine hlines hnewline hlast htext

/-- **A visibility is inserted where it is found, exactly if a word of the code starts there.** Take
    a table that can be built, whose custom access names are plain names of their own, and a
    declaration whose visibility is open: the engine does not report it, and the header span spells
    none out. Giving it a visibility that has to be spelled out does not fail, and puts the
    visibility and a space into the header line, in front of the first byte there that a modifier
    can start with. The visibility is found at that place exactly if a word of the code starts
    there. Inspection then reports it, with the same modifiers and the keyword moved on. If the
    place is in a comment, there is no effect but on the offsets of the keyword. -/
theorem changeAccess_inserts_iff {name base : Text} {opts : LanguageOptions} {lang : Language}
    (hbuild : Language.build name base opts = .ok lang) (hclean : lang.CleanAccess)
    (scope : Option ToggleScope) {found : Found} {s : Inspection} {w : Work}
    (hw : w.writesLeft ≠ some 0) (hs : w.buffer.inspect? lang found = some s)
    (haccess : found.target.visibility = [])
    (hnone : lang.firstVisibility? (w.buffer.codeLines s.span) = none) {vis : Text}
    (hvis : lang.isVisibility vis = true) (hkeyword : lang.visibilityKeyword s.kind vis ≠ []) :
    let o := (⟨lang, scope⟩ : Editor).changeAccess s.span s.kind vis w
    let x := w.buffer.line s.header.line
    let i := LineEdit.firstModifierByte x
    let size := vis.length + 1
    o.error = none ∧
    o.work.buffer.text
      = w.buffer.withLine s.header.line (x.take i ++ vis ++ [Byte.space] ++ x.drop i) ∧
    ((∃ l at_, lang.firstVisibility? (o.work.buffer.codeLines s.span) = some (l, at_) ∧
        l.number = s.header.line ∧ at_.start = i)
      ↔ w.buffer.StartsCodeWord s.span i) ∧
    (w.buffer.StartsCodeWord s.span i →
      o.work.buffer.inspect? lang found = some { s with
        header := ⟨s.header.line, s.header.start + size, s.header.stop + size⟩
        visibility := vis }) ∧
    (¬ w.buffer.InCode s.span i → ∃ header, header.line = s.header.line ∧
      o.work.buffer.inspect? lang found = some { s with header }) := by
  intro o x i size
  have hlang := Language.build_customary hbuild hclean
  obtain ⟨above, l, u, c, t, hcut⟩ := Buffer.exists_headerCut hbuild hclean hs
  obtain ⟨herror, htext⟩ := changeAccess_cut hlang scope hw hcut hnone hkeyword
  obtain ⟨hupper, hlines⟩ := codeLines_changeAccess_cut hlang scope hw hcut hnone hvis hkeyword
  have hx : x = u ++ c :: t := hcut.line.trans hcut.text
  have hi : i = u.length := by
    rw [← hcut.cut, ← hcut.line]
  have htake : x.take i = u := by rw [hx, hi, List.take_left]
  have hdrop : x.drop i = c :: t := by rw [hx, hi, List.drop_left]
  have hmissing := Language.firstVisibility?_eq_none hnone
  rw [hcut.lines] at hmissing
  -- the new visibility can only be found on the header line
  have hfound : (∃ l' at_, lang.firstVisibility? (o.work.buffer.codeLines s.span) = some (l', at_) ∧
      l'.number = s.header.line ∧ at_.start = i) ↔ ∃ at_, lang.findVisibility? (lang.modifierPart
        (stripLine (openAfter false (above.map (·.text))) (u ++ (vis ++ Byte.space :: c :: t))).1)
          = some at_ ∧ at_.start = u.length := by
    rw [hlines, Language.firstVisibility?_concat fun l' hl' =>
      hmissing l' (List.mem_append_left _ hl'), hi]
    constructor
    · rintro ⟨l', at_, hat, -, hstart⟩
      obtain ⟨at_', hat', heq⟩ := Option.map_eq_some_iff.1 hat
      obtain ⟨-, rfl⟩ := Prod.mk.inj heq
      exact ⟨at_', hat', hstart⟩
    · rintro ⟨at_, hat, hstart⟩
      exact ⟨_, at_, Option.map_eq_some_iff.2 ⟨at_, hat, rfl⟩, hcut.number, hstart⟩
  refine ⟨herror, ?_, ?_⟩
  · rw [htext, htake, hdrop, hcut.number]
    simp
  rw [hfound, hi, hcut.startsCodeWord_iff, hcut.inCode_iff hupper]
  obtain ⟨front, keyword, after, hstart, hle⟩ := hcut.start
  have hnone' : lang.findVisibility? (lang.modifierPart l.code) = none :=
    hmissing l (by simp)
  have hcode := hcut.code
  rw [hcut.text] at hcode
  rw [hcode] at hstart hnone'
  rcases Language.insertion_cases hlang hvis hcut.isWord hstart hle hnone' with
    ⟨hplace, hends, htakes, hat⟩ | ⟨hplace, hends, hmiss⟩ | ⟨hplace, hshows, hmiss⟩
  · refine ⟨⟨fun _ => ⟨hplace, hends⟩, fun _ => hat⟩, fun _ => ?_, fun h => absurd hplace h⟩
    rw [← hcode] at htakes hnone'
    exact Buffer.inspect?_of_takesWord hlang hs haccess hcut.lines hlines rfl hvis htakes hnone'
  · refine ⟨⟨fun ⟨at_, hat, hat_start⟩ => absurd hat_start (hmiss at_ hat),
      fun h => absurd h.2 hends⟩, fun h => absurd h.2 hends, fun h => absurd hplace h⟩
  · have hplace' : (LexState.entering (openAfter false (above.map (·.text)))).placeAt
        (u ++ c :: t) u.length ≠ .code := by
      rw [hplace]
      decide
    refine ⟨⟨fun ⟨at_, hat, _⟩ => ?_, fun h => absurd h.1 hplace'⟩,
      fun h => absurd h.1 hplace', fun _ => ?_⟩
    · rw [hmiss] at hat
      cases hat
    · refine Buffer.inspect?_showSame hlang hs ?_
      rw [Buffer.spanLines_eq_map, Buffer.spanLines_eq_map, hcut.lines, hlines, List.map_append,
        List.map_append, List.map_singleton, List.map_singleton, hcut.text]
      exact .exchange hshows []

/-- A comment over two lines, and behind it the header of a method. -/
def closingWork : Work :=
  { buffer := .ofText (utf8 "/* private\n */ @:keep static function f() \x7b\x7d") }

/-- Behind the end of a comment, in front of an annotation, a visibility has its effect. -/
theorem changeAccess_inserts_closing :
    let lang := Language.haxe {}
    Language.build [] (utf8 "haxe") {} = .ok lang ∧ lang.CleanAccess ∧
    lang.isVisibility (utf8 "public") = true ∧
    ∃ s, closingWork.buffer.inspect? lang splitMethod = some s ∧
      lang.firstVisibility? (closingWork.buffer.codeLines s.span) = none ∧
      lang.visibilityKeyword s.kind (utf8 "public") ≠ [] ∧
      closingWork.buffer.StartsCodeWord s.span 4 ∧
      let o := changeAccess ⟨lang, none⟩ s.span s.kind (utf8 "public") closingWork
      o.work.buffer.text = utf8 "/* private\n */ public @:keep static function f() \x7b\x7d" ∧
      ∃ s', o.work.buffer.inspect? lang splitMethod = some s' ∧
        s'.visibility = utf8 "public" ∧ s'.present = [.static] := by
  intro lang
  have hbuild : Language.build [] (utf8 "haxe") {} = .ok lang := rfl
  have hclean : lang.CleanAccess := fun v hv => absurd hv List.not_mem_nil
  have hvis : lang.isVisibility (utf8 "public") = true := by decide
  have hedits : (closingWork.buffer.inspect? lang splitMethod).any (fun s =>
      (lang.firstVisibility? (closingWork.buffer.codeLines s.span)).isNone &&
      !(lang.visibilityKeyword s.kind (utf8 "public")).isEmpty &&
      LineEdit.firstModifierByte (closingWork.buffer.line s.header.line) == 4 &&
      decide (closingWork.buffer.StartsCodeWord s.span 4) && s.present == [.static] &&
      (changeAccess ⟨lang, none⟩ s.span s.kind (utf8 "public") closingWork).work.buffer.text
        == utf8 "/* private\n */ public @:keep static function f() \x7b\x7d") = true := by decide
  obtain ⟨s, hs, hedits⟩ := (Option.any_eq_true _ _).1 hedits
  simp only [Bool.and_eq_true, beq_iff_eq, Option.isNone_iff_eq_none, Bool.not_eq_true',
    List.isEmpty_eq_false_iff, decide_eq_true_eq] at hedits
  obtain ⟨⟨⟨⟨⟨hnone, hkeyword⟩, hfirst⟩, hstarts⟩, hpresent⟩, htext⟩ := hedits
  obtain ⟨-, -, -, hinspect, -⟩ := changeAccess_inserts_iff hbuild hclean none (by decide) hs rfl
    hnone hvis hkeyword
  rw [hfirst] at hinspect
  exact ⟨hbuild, hclean, hvis, s, hs, hnone, hkeyword, hstarts, htext, _, hinspect hstarts, rfl,
    hpresent⟩

/-- The first letter of the line is in a comment: the visibility goes into the comment, and
    inspection does not see it. -/
theorem changeAccess_inserts_into_comment :
    let lang := Language.haxe {}
    let w : Work := { buffer := .ofText (utf8 "/* doc */ function f() \x7b\x7d") }
    let method : Found :=
      { enclosing := { declaration := { name := utf8 "A", lineFrom := 0, lineTo := 0 } }
        member := some { name := utf8 "f", lineFrom := 0, lineTo := 0, flags := .function } }
    (w.buffer.inspect? lang method).any (fun s =>
      let o := changeAccess ⟨lang, none⟩ s.span s.kind (utf8 "public") w
      (lang.firstVisibility? (w.buffer.codeLines s.span)).isNone &&
      o.work.buffer.text == utf8 "/* public doc */ function f() \x7b\x7d" &&
      (o.work.buffer.inspect? lang method).any (·.visibility == utf8 "private")) = true := by
  decide

end Editor

end ModifierToggle
