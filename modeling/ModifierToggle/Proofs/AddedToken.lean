import ModifierToggle.Proofs.InsertedVisibility
import ModifierToggle.Proofs.WordPermutation

set_option autoImplicit false

/-! # Removing a token that was added

A token goes directly before the keyword of its declaration, with a space behind it. The byte before
the keyword is no word byte, so the token stands alone there, the last of the modifiers; if the
declaration did not have the token, it is also the first occurrence of it, and it is cut out
together with its space. In between, inspection sees the token and all the rest as before
(`Editor.removeToken_undoes_addToken`).

The access names of a table may be anything made of word bytes here, a declaration keyword included.
What matters of them is that none spells a token, since then the token would be a visibility. -/

namespace ModifierToggle

open Comment (strip stripLine openAfter)
open Text (EndsOutsideWord FirstStanding)

/-! ## A word before the keyword -/

namespace Language

/-- A header with the modifiers `front`, and with a word behind them. -/
structure TakesLast (lang : Language) (v code code' front : Text) (at_ : Keyword.Occurrence) :
    Prop where
  start : lang.findStart? code = some at_
  start_new : lang.findStart? code' = some (at_.shift (v.length + 1))
  part : lang.modifierPart code = front
  part_new : lang.modifierPart code' = front ++ (v ++ [Byte.space])
  front_ends : EndsOutsideWord front

theorem TakesLast.congr {lang lang₀ : Language}
    (h : lang₀.declarationStart = lang.declarationStart) {v code code' front : Text}
    {at_ : Keyword.Occurrence} (htakes : lang₀.TakesLast v code code' front at_) :
    lang.TakesLast v code code' front at_ where
  start := (findStart?_congr h code).trans htakes.start
  start_new := (findStart?_congr h code').trans htakes.start_new
  part := (modifierPart_congr h code).trans htakes.part
  part_new := (modifierPart_congr h code').trans htakes.part_new
  front_ends := htakes.front_ends

theorem TakesLast.words {lang : Language} {v code code' front : Text} {at_ : Keyword.Occurrence}
    (h : lang.TakesLast v code code' front at_) (hv : v.isHeaderWord = true) :
    lang.modifierWords code' = lang.modifierWords code ++ [v] := by
  rw [modifierWords, modifierWords, h.part, h.part_new, Text.standing_insertWord h.front_ends
    (Text.isWord_of_isHeaderWord hv) (Text.ne_nil_of_isHeaderWord hv)]
  rfl

/-- A word that is put before the keyword on a line comes to stand there in its code. -/
theorem exists_takesLast {lang : Language} (hlang : lang.Customary) {v : Text}
    (hv : lang.IsModifierWord v) {inBlock : Bool} {x : Text} {at_ : Keyword.Occurrence}
    (hat : lang.findStart? (stripLine inBlock x).1 = some at_) :
    ∃ a k front, x = a ++ k ∧ k ≠ [] ∧ a.length = at_.start ∧ front.length = at_.start ∧
      lang.TakesLast v (stripLine inBlock x).1
        (stripLine inBlock (a ++ (v ++ Byte.space :: k))).1 front at_ := by
  obtain ⟨m, hm, hmode⟩ := Comment.exists_mode inBlock
  simp only [hmode] at hat ⊢
  obtain ⟨front, keyword, after, hfirst, hfront⟩ := exists_first_start hlang hat
  obtain ⟨a, y, hx, hreads, hy⟩ := Comment.exists_word (Prod.ext hfirst.text_eq rfl)
    hfirst.ne_nil hfirst.isWord
  have hlength : a.length = front.length := by
    have := hreads.length_eq
    omega
  have hword := Text.isWord_of_isHeaderWord hv.1
  have hne := Text.ne_nil_of_isHeaderWord hv.1
  -- the code before, and the code after
  have hold : FirstStanding (· ∈ lang.startWords) false (front ++ [] ++ (keyword ++ after))
      (front ++ []) keyword after := by
    rw [List.append_nil, ← hfirst.text_eq]
    exact hfirst
  have hnew := hold.insertWord (by simpa using hfirst.before_ends) hword hne hv.2
  have hcode : (strip m (a ++ (v ++ Byte.space :: (keyword ++ y)))).1
      = front ++ (v ++ [Byte.space]) ++ (keyword ++ after) := by
    rw [hreads.strip_append fun _ => Comment.not_opens_word hword hne _,
      Comment.strip_word_space hword, Comment.strip_word hfirst.isWord, hy]
    simp
  refine ⟨a, keyword ++ y, front, hx, by simp [hfirst.ne_nil], hlength.trans hfront, hfront,
    hat, ?_, modifierPart_first hlang hfirst, ?_, hfirst.before_ends⟩
  · have hstart := findStart?_insertWord hlang (by simpa using hfirst.before_ends) hv hold
    rw [hcode, hstart, List.append_nil, ← hfirst.text_eq, hat, Option.map_some]
  · rw [hcode]
    exact modifierPart_first hlang hnew

/-- Access names made of word bytes make for plain visibilities. -/
theorem build_plainVisibilities {name base : Text} {opts : LanguageOptions} {lang : Language}
    (hbuild : build name base opts = .ok lang) (haccess : lang.PlainAccess) :
    lang.PlainVisibilities := by
  obtain ⟨hsound, hwords⟩ := build_soundKeywords hbuild
  refine ⟨fun v hv => ?_, ?_, hwords⟩
  · rw [hwords] at hv
    exact ⟨(mem_allVisibilities.1 hv).2,
      isWord_of_isVisibility hsound haccess (isVisibility_iff.2 hv)⟩
  · obtain ⟨n, rfl | rfl⟩ := build_cases hbuild <;> rfl

/-- In a table that can be built, a token is found if it is one of the words. -/
theorem find?_isSome_iff {name base : Text} {opts : LanguageOptions} {lang : Language}
    (hbuild : build name base opts = .ok lang) {tok : Token} (htok : tok ∈ lang.tokens)
    (code : Text) :
    (tok.find? (lang.modifierPart code)).isSome = true ↔ tok.keyword ∈ lang.modifierWords code := by
  obtain ⟨lang₀, hlang₀, hstart, htokens⟩ := exists_customary hbuild
  rw [modifierWords, modifierPart_congr hstart]
  exact find?_modifierPart_isSome hlang₀ (htokens ▸ htok) code

/-- A token is no visibility unless it spells an access name of the user's own. -/
theorem SoundKeywords.isVisibility_keyword {lang : Language} (hsound : lang.SoundKeywords)
    {tok : Token} (htok : tok ∈ lang.tokens) (haccess : tok.keyword ∉ lang.customAccess) :
    lang.isVisibility tok.keyword = false := by
  obtain ⟨-, -, -, hown⟩ := hsound
  rw [Bool.eq_false_iff, ne_eq, isVisibility_iff, mem_allVisibilities]
  rintro ⟨hmem | hmem | hmem, -⟩
  · exact (hown _ (List.mem_append_left _ hmem)).2.2 tok htok rfl
  · exact (hown _ (List.mem_append_right _ hmem)).2.2 tok htok rfl
  · exact haccess hmem

/-- The tokens of a table that can be built stand for different modifiers. -/
theorem token?_of_mem {name base : Text} {opts : LanguageOptions} {lang : Language}
    (hbuild : build name base opts = .ok lang) {tok : Token} (htok : tok ∈ lang.tokens) :
    lang.token? tok.modifier = some tok := by
  revert tok
  obtain ⟨n, rfl | rfl⟩ := build_cases hbuild
  · show ∀ tok ∈ (haxe {}).tokens, (haxe {}).token? tok.modifier = some tok
    decide
  · show ∀ tok ∈ (actionScript3 {}).tokens, (actionScript3 {}).token? tok.modifier = some tok
    decide

end Language

/-! ## Inspecting a declaration with one more token -/

namespace Buffer

variable {b b' : Buffer} {lang : Language} {found : Found} {s : Inspection}
  {above : List CodeLine} {l l' : CodeLine} {v front : Text} {at_ : Keyword.Occurrence}

/-- The header of a declaration whose header line takes a word is on the same line, and further on
    by the word. -/
theorem findHeader?_of_takesLast (hs : b.inspect? lang found = some s)
    (hlines : b.codeLines s.span = above ++ [l]) (hlines' : b'.codeLines s.span = above ++ [l'])
    (hnumber : l'.number = l.number) (htakes : lang.TakesLast v l.code l'.code front at_) :
    b'.findHeader? lang s.target.span = some
      ⟨s.header.line, s.header.start + (v.length + 1), s.header.stop + (v.length + 1)⟩ := by
  have hfound := findHeader?_of_inspect? hs
  obtain ⟨above', l₀, at', hsplit, habove, hat, hheader⟩ := findHeader?_split hfound
  obtain ⟨rfl, heq⟩ := List.append_inj' (hsplit.symm.trans hlines) rfl
  obtain rfl := List.singleton_inj.1 heq
  obtain rfl : at' = at_ := Option.some.inj (hat.symm.trans htakes.start)
  have hline : s.header.line = l'.number := by rw [hnumber, hheader]
  have hfound' : b'.findHeader? lang s.target.span = some ⟨l'.number, _, _⟩ :=
    findHeader?_of_codeLines (hline ▸ hlines') habove htakes.start_new
      (hline ▸ findHeader?_le hfound)
  rw [hfound', hheader, hnumber]
  rfl

/-- A token is seen if it was seen before or is the word that the header line takes. -/
theorem hasToken_of_takesLast {name base : Text} {opts : LanguageOptions}
    (hbuild : Language.build name base opts = .ok lang) (hv : v.isHeaderWord = true)
    {target : Member} {header header' : Header}
    (hheader : b.findHeader? lang target.span = some header)
    (hheader' : b'.findHeader? lang target.span = some header')
    (hlines : b.codeLines ⟨target.lineFrom, header.line⟩ = above ++ [l])
    (hlines' : b'.codeLines ⟨target.lineFrom, header'.line⟩ = above ++ [l'])
    (htakes : lang.TakesLast v l.code l'.code front at_) {tok : Token} (htok : tok ∈ lang.tokens) :
    b'.hasToken target.lineFrom header' tok
      = (b.hasToken target.lineFrom header tok || tok.keyword == v) := by
  have hpart : ∀ l : CodeLine, (tok.find? (l.searchable lang)).isSome = true
      ↔ tok.keyword ∈ lang.modifierWords l.code :=
    fun l => Language.find?_isSome_iff hbuild htok l.code
  have hline : (tok.find? (l'.searchable lang)).isSome
      = ((tok.find? (l.searchable lang)).isSome || tok.keyword == v) := by
    rw [Bool.eq_iff_iff, Bool.or_eq_true, hpart, hpart, htakes.words hv]
    simp
  rw [hasToken_eq hheader, hasToken_eq hheader', hlines, hlines', List.any_append, List.any_append]
  simp only [List.any_cons, List.any_nil, hline, Bool.or_false, Bool.or_assoc]

/-- A word that is no visibility hides none. -/
theorem visibilityOf_of_takesLast (hlang : lang.PlainVisibilities) (hv : v.isHeaderWord = true)
    (hnot : lang.isVisibility v = false) {target : Member} {header header' : Header}
    (hheader : b.findHeader? lang target.span = some header)
    (hheader' : b'.findHeader? lang target.span = some header')
    (hlines : b.codeLines ⟨target.lineFrom, header.line⟩ = above ++ [l])
    (hlines' : b'.codeLines ⟨target.lineFrom, header'.line⟩ = above ++ [l'])
    (htakes : lang.TakesLast v l.code l'.code front at_) (kind : Kind) :
    b'.visibilityOf lang kind target header' = b.visibilityOf lang kind target header := by
  obtain ⟨above₁, l₁, at₁, hsplit, -, hat, rfl⟩ := findHeader?_split hheader
  obtain ⟨above₂, l₂, at₂, hsplit', -, hat', rfl⟩ := findHeader?_split hheader'
  obtain ⟨-, heq⟩ := List.append_inj' (hsplit.symm.trans hlines) rfl
  obtain rfl := List.singleton_inj.1 heq
  obtain ⟨-, heq⟩ := List.append_inj' (hsplit'.symm.trans hlines') rfl
  obtain rfl := List.singleton_inj.1 heq
  have hfind : (lang.modifierWords l₂.code).find? lang.isVisibility
      = (lang.modifierWords l₁.code).find? lang.isVisibility := by
    rw [htakes.words hv, List.find?_append, List.find?_singleton, hnot]
    simp
  rw [visibilityOf_eq hlang hsplit hat, visibilityOf_eq hlang hsplit' hat', hfind]

end Buffer

/-! ## Adding and removing -/

theorem LineEdit.cut_inserted (a v k : Text) :
    cut (a ++ (v ++ Byte.space :: k)) a.length (a.length + v.length) = a ++ k := by
  have hblank : blankAt (a ++ (v ++ Byte.space :: k)) (a.length + v.length) = true := by
    simp [blankAt, Byte.isBlank]
  rw [cut, if_pos hblank, List.take_left, Nat.add_assoc, List.drop_length_add_append,
    List.drop_length_add_append]
  rfl

/-- A buffer before and after a word has been put before the keyword of a declaration: the lines of
    the header span, of which the last is another, and the place of the word on it. -/
structure Buffer.HeaderTakes (lang : Language) (span : Span) (v : Text) (b b' : Buffer)
    (above : List CodeLine) (l l' : CodeLine) (a k front : Text) (at_ : Keyword.Occurrence) :
    Prop where
  lines : b.codeLines span = above ++ [l]
  lines_new : b'.codeLines span = above ++ [l']
  number_eq : l'.number = l.number
  text : l.text = a ++ k
  text_new : l'.text = a ++ (v ++ Byte.space :: k)
  length_eq : a.length = front.length
  takes : lang.TakesLast v l.code l'.code front at_
  line_new : b'.text.lines[l'.number]? = some l'.text
  restored : b'.withLine l.number l.text = b.text

namespace Editor

section

variable {name base : Text} {opts : LanguageOptions} {lang : Language}
  (hbuild : Language.build name base opts = .ok lang) (scope : Option ToggleScope) {w : Work}
  (hw : w.writesLeft = none) {tok : Token} (htok : tok ∈ lang.tokens)

include hbuild hw htok

/-- A token that is added comes to stand before the keyword of the declaration. -/
theorem addToken_headerTakes {found : Found} {s : Inspection}
    (hs : w.buffer.inspect? lang found = some s) :
    let added := (⟨lang, scope⟩ : Editor).addToken s.span tok w
    added.error = none ∧ added.work.writesLeft = none ∧
      ∃ above l l' a k front at_, Buffer.HeaderTakes lang s.span tok.keyword w.buffer
        added.work.buffer above l l' a k front at_ := by
  obtain ⟨lang₀, hlang₀, hstart, htokens⟩ := Language.exists_customary hbuild
  have hv : lang₀.IsModifierWord tok.keyword := hlang₀.token_word tok (htokens ▸ htok)
  obtain ⟨above, l, at_, hlines, habove, hat, hheader⟩ :=
    Buffer.findHeader?_split (Buffer.findHeader?_of_inspect? hs)
  have hspan : s.span = ⟨s.target.span.first, l.number⟩ := by rw [Inspection.span, hheader]; rfl
  rw [hheader] at hlines
  rw [hspan]
  obtain ⟨-, hl, -, hcode⟩ := Buffer.codeLines_split hlines
  have hat₀ := hat
  rw [CodeLine.start?, hcode, Language.findStart?_congr hstart] at hat₀
  obtain ⟨a, k, front, htext, hk, ha, hfront, htakes⟩ := Language.exists_takesLast hlang₀ hv hat₀
  let y := a ++ (tok.keyword ++ Byte.space :: k)
  have hinsert : LineEdit.insertAt l.text tok.keyword at_.start = y := by
    rw [htext, ← ha, LineEdit.insertAt_length]
    simp [y]
  have hedit : LineEdit.addToken lang tok l = some y := by
    rw [LineEdit.addToken, hat, Option.map_some, hinsert]
  have hnewline : Byte.newline ∉ y := LineEdit.addToken_oneLine lang
    (Language.newline_notMem_keyword hbuild htok) l y
    (Buffer.newline_notMem_text (hlines ▸ List.mem_append_right _ List.mem_cons_self)) hedit
  have hlast : y.getLast? = l.text.getLast? := by
    obtain ⟨c, k, rfl⟩ := List.exists_cons_of_ne_nil hk
    rw [htext]
    exact Text.getLast?_insert a tok.keyword c k
  have hfirst : (LineEdit.addToken lang tok).first?
      (w.buffer.codeLines ⟨s.target.span.first, l.number⟩) = some (l, y) := by
    rw [hlines]
    refine LineEdit.first?_split (fun l' hl' => ?_) (by simp [htext, hk]) hedit
    rw [LineEdit.addToken, habove l' hl', Option.map_none]
  have hadded : (⟨lang, scope⟩ : Editor).addToken ⟨s.target.span.first, l.number⟩ tok w
      = Step.setLine scope l y w := by
    rw [addToken, Step.editLine, hfirst]
  rw [hadded]
  obtain ⟨herror, hset⟩ := Step.setLine_withLine scope (by simp [hw]) hl y
  obtain ⟨hline, hrestored⟩ := Buffer.lines_withLine hl hnewline hlast hset
  exact ⟨herror, Step.setLine_writesLeft scope l y hw, above, l, _, a, k, front, at_, hlines,
    (Buffer.codeLines_withLine hlines hnewline hlast hset).2, rfl, htext, rfl, ha.trans hfront.symm,
    (hcode ▸ htakes).congr hstart, hline, hrestored⟩

/-- Where the declaration did not have it, the token is taken out again with its space. -/
theorem removeToken_of_headerTakes {span : Span} {b : Buffer} {above : List CodeLine}
    {l l' : CodeLine} {a k front : Text} {at_ : Keyword.Occurrence}
    (h : Buffer.HeaderTakes lang span tok.keyword b w.buffer above l l' a k front at_)
    (hnone : ∀ l₀ ∈ above ++ [l], tok.find? (l₀.searchable lang) = none) :
    let removed := (⟨lang, scope⟩ : Editor).removeToken span tok w
    removed.error = none ∧ removed.work.buffer.text = b.text := by
  obtain ⟨lang₀, hlang₀, -, htokens⟩ := Language.exists_customary hbuild
  have htok₀ : tok ∈ lang₀.tokens := htokens ▸ htok
  obtain ⟨hne, hword⟩ := Language.tokenWord hlang₀ htok₀
  -- the token is the first of its kind on the line
  have hfirst : FirstStanding (· = tok.keyword) true (l'.searchable lang) front tok.keyword
      [Byte.space] := by
    refine ⟨h.takes.part_new, h.takes.front_ends, hword, hne, Text.closesWord_space [],
      fun _ => rfl, rfl, fun v hv heq => ?_⟩
    have hline := (Language.find?_isSome_iff hbuild htok l.code).2 (by
      rw [Language.modifierWords, h.takes.part]
      exact heq ▸ hv)
    have hmiss : tok.find? (lang.modifierPart l.code) = none := hnone l (by simp)
    rw [hmiss] at hline
    cases hline
  obtain ⟨at', hat', hstart, hstop⟩ := Language.find?_first hlang₀ htok₀ hfirst
  have hedit : LineEdit.removeToken lang tok l' = some l.text := by
    rw [LineEdit.removeToken, hat', Option.map_some, hstart, hstop, h.text_new, h.text,
      ← h.length_eq, LineEdit.cut_inserted]
  have htaken : (LineEdit.removeToken lang tok).first? (w.buffer.codeLines span)
      = some (l', l.text) := by
    rw [h.lines_new]
    refine LineEdit.first?_split (fun l₀ hl₀ => ?_) ?_ hedit
    · rw [LineEdit.removeToken, hnone l₀ (List.mem_append_left _ hl₀), Option.map_none]
    · simp [h.text_new]
  intro removed
  have hremoved : removed = Step.setLine scope l' l.text w := by
    simp only [removed, removeToken, Step.editLine, htaken]
  obtain ⟨herror, hset⟩ := Step.setLine_withLine scope (by simp [hw]) h.line_new l.text
  rw [hremoved, hset, h.number_eq]
  exact ⟨herror, h.restored⟩

end

/-- **Removing a token undoes adding it.** Take a table that can be built whose access names are
    plain words and spell no token, any text, a declaration in it that inspection finds, and a token
    that inspection does not see there. When the token has been added, inspection finds the same
    declaration with its keyword on the same line and further on by the token and a space; it sees
    the token, all other tokens and modifiers as before, and the same visibility. Removing the token
    then restores the text byte for byte. -/
theorem removeToken_undoes_addToken {name base : Text} {opts : LanguageOptions} {lang : Language}
    (hbuild : Language.build name base opts = .ok lang)
    (haccess : ∀ v ∈ lang.customAccess, (∀ b ∈ v, Byte.isPlainWord b = true) ∧
      ∀ tok ∈ lang.tokens, tok.keyword ≠ v)
    (scope : Option ToggleScope) {found : Found} {s : Inspection} {w : Work}
    (hw : w.writesLeft = none) (hs : w.buffer.inspect? lang found = some s) {tok : Token}
    (htok : tok ∈ lang.tokens)
    (hhas : w.buffer.hasToken s.target.lineFrom s.header tok = false) :
    let ed : Editor := ⟨lang, scope⟩
    let added := ed.addToken s.span tok w
    let removed := ed.removeToken s.span tok added.work
    let size := tok.keyword.length + 1
    (added.error = none ∧ removed.error = none ∧
      removed.work.buffer.text = w.buffer.text) ∧
    ∃ s', added.work.buffer.inspect? lang found = some s' ∧ s'.found = s.found ∧
      s'.kind = s.kind ∧
      s'.header = ⟨s.header.line, s.header.start + size, s.header.stop + size⟩ ∧
      s'.visibility = s.visibility ∧
      added.work.buffer.hasToken s'.target.lineFrom s'.header tok = true ∧
      (∀ tok' ∈ lang.tokens, tok' ≠ tok →
        added.work.buffer.hasToken s'.target.lineFrom s'.header tok'
          = w.buffer.hasToken s.target.lineFrom s.header tok') ∧
      s'.has tok.modifier = true ∧ ∀ m ≠ tok.modifier, s'.has m = s.has m := by
  intro ed added removed size
  obtain ⟨hsound, -⟩ := Language.build_soundKeywords hbuild
  obtain ⟨-, htokens, hinjective, -⟩ := hsound
  have hv := (htokens tok htok).2.1
  obtain ⟨herror, hwrites, above, l, l', a, k, front, at_, htakes⟩ :=
    addToken_headerTakes hbuild scope hw htok hs
  have hheader := Buffer.findHeader?_of_inspect? hs
  have hheader' := Buffer.findHeader?_of_takesLast hs htakes.lines htakes.lines_new
    htakes.number_eq htakes.takes
  have htoken : ∀ tok' ∈ lang.tokens, added.work.buffer.hasToken s.target.lineFrom
      ⟨s.header.line, s.header.start + size, s.header.stop + size⟩ tok'
        = (w.buffer.hasToken s.target.lineFrom s.header tok' || tok'.keyword == tok.keyword) :=
    fun tok' htok' => Buffer.hasToken_of_takesLast hbuild hv hheader hheader' htakes.lines
      htakes.lines_new htakes.takes htok'
  have hother : ∀ tok' ∈ lang.tokens, tok' ≠ tok → added.work.buffer.hasToken s.target.lineFrom
      ⟨s.header.line, s.header.start + size, s.header.stop + size⟩ tok'
        = w.buffer.hasToken s.target.lineFrom s.header tok' := by
    intro tok' htok' hne
    have hkeyword : (tok'.keyword == tok.keyword) = false := by
      simpa using fun heq => hne (hinjective tok' htok' tok htok heq)
    rw [htoken tok' htok', hkeyword, Bool.or_false]
  have hvisibility := Buffer.visibilityOf_of_takesLast
    (Language.build_plainVisibilities hbuild fun v hv => (haccess v hv).1) hv
    ((Language.build_soundKeywords hbuild).1.isVisibility_keyword htok fun hmem =>
      (haccess _ hmem).2 tok htok rfl)
    hheader hheader' htakes.lines htakes.lines_new htakes.takes s.kind
  have hnone : ∀ l₀ ∈ above ++ [l], tok.find? (l₀.searchable lang) = none := by
    intro l₀ hl₀
    have hlines : w.buffer.codeLines ⟨s.target.lineFrom, s.header.line⟩ = above ++ [l] :=
      htakes.lines
    rw [Buffer.hasToken_eq hheader, hlines, List.any_eq_false] at hhas
    exact Option.not_isSome_iff_eq_none.1 (hhas l₀ hl₀)
  obtain ⟨herror', hrestored⟩ :=
    removeToken_of_headerTakes hbuild scope hwrites htok htakes hnone
  have hs' := Buffer.inspect?_of_findHeader? hs hheader'
  have hself : added.work.buffer.hasToken s.target.lineFrom
      ⟨s.header.line, s.header.start + size, s.header.stop + size⟩ tok = true := by
    rw [htoken tok htok, BEq.rfl, Bool.or_true]
  refine ⟨⟨herror, herror', hrestored⟩, _, hs', rfl, rfl, rfl, ?_, hself, hother, ?_, ?_⟩
  · rw [(Buffer.inspect?_eq_some hs).2.2]
    exact hvisibility
  · rw [Buffer.has_of_inspect? hs', Buffer.hasModifier, Language.token?_of_mem hbuild htok,
      Option.any_some]
    simp only [Bool.or_eq_true]
    exact .inl (.inl (.inl hself))
  · intro m hm
    rw [Buffer.has_of_inspect? hs', Buffer.has_of_inspect? hs, Buffer.hasModifier,
      Buffer.hasModifier]
    cases htok' : lang.token? m with
    | none => rfl
    | some tok' =>
      have hmodifier : tok'.modifier = m := by simpa using List.find?_some htok'
      have hne : tok' ≠ tok := by
        rintro rfl
        exact hm hmodifier.symm
      rw [Option.any_some, Option.any_some, ← hother tok' (List.mem_of_find?_eq_some htok') hne]
      rfl

/-- A language with access names of its own, one of them the keyword of a declaration. -/
def accessOptions : LanguageOptions := { customAccess := [utf8 "function", utf8 "9a"] }

/-- A method behind a comment that names a token, with an occurrence that does not stand alone. -/
def spacedWork : Work :=
  { buffer := .ofText (utf8 "/* static\n */ 9a (static)\x0c//*/\n\r9a\x0cfunction f() \x7b\x7d") }

/-- The method, as the engine reports it. -/
def spacedMethod : Found where
  enclosing := { declaration := { name := utf8 "A", lineFrom := 0, lineTo := 2 } }
  member := some { name := utf8 "f", lineFrom := 0, lineTo := 2, flags := .function }

/-- The token comes to stand between a form feed and the keyword, and goes again. -/
theorem removeToken_undoes_addToken_spaced :
    let lang := Language.actionScript3 accessOptions
    let tok := Token.new .static (utf8 "static") .leadingSpecial .free [.method, .field]
    Language.build [] (utf8 "as3") accessOptions = .ok lang ∧
    (∀ v ∈ lang.customAccess, (∀ b ∈ v, Byte.isPlainWord b = true) ∧
      ∀ tok ∈ lang.tokens, tok.keyword ≠ v) ∧
    tok ∈ lang.tokens ∧
    ∃ s, spacedWork.buffer.inspect? lang spacedMethod = some s ∧
      spacedWork.buffer.hasToken s.target.lineFrom s.header tok = false ∧
      let ed : Editor := ⟨lang, none⟩
      let added := ed.addToken s.span tok spacedWork
      added.work.buffer.text
        = utf8 "/* static\n */ 9a (static)\x0c//*/\n\r9a\x0cstatic function f() \x7b\x7d" ∧
      (ed.removeToken s.span tok added.work).work.buffer.text = spacedWork.buffer.text ∧
      ∃ s', added.work.buffer.inspect? lang spacedMethod = some s' ∧
        s'.header = ⟨2, 11, 20⟩ ∧ s'.visibility = utf8 "9a" ∧ s'.has .static = true := by
  intro lang tok
  have hbuild : Language.build [] (utf8 "as3") accessOptions = .ok lang := rfl
  have haccess : ∀ v ∈ lang.customAccess, (∀ b ∈ v, Byte.isPlainWord b = true) ∧
      ∀ tok ∈ lang.tokens, tok.keyword ≠ v := by
    have hall : lang.customAccess.all (fun v => v.all Byte.isPlainWord &&
        lang.tokens.all fun tok => tok.keyword != v) = true := by decide
    simpa only [List.all_eq_true, Bool.and_eq_true, bne_iff_ne] using hall
  have htok : tok ∈ lang.tokens := List.mem_cons_self
  have hsees : (spacedWork.buffer.inspect? lang spacedMethod).any (fun s =>
      !spacedWork.buffer.hasToken s.target.lineFrom s.header tok && s.header == ⟨2, 4, 13⟩ &&
        s.visibility == utf8 "9a" &&
        (addToken ⟨lang, none⟩ s.span tok spacedWork).work.buffer.text
          == utf8 "/* static\n */ 9a (static)\x0c//*/\n\r9a\x0cstatic function f() \x7b\x7d")
      = true := by decide
  obtain ⟨s, hs, hsees⟩ := (Option.any_eq_true _ _).1 hsees
  simp only [Bool.and_eq_true, Bool.not_eq_true', beq_iff_eq] at hsees
  obtain ⟨⟨⟨hhas, hheader⟩, hvisibility⟩, htext⟩ := hsees
  obtain ⟨⟨-, -, hrestored⟩, s', hs', -, -, hheader', hvisibility', -, -, hstatic, -⟩ :=
    removeToken_undoes_addToken hbuild haccess none rfl hs htok hhas
  rw [hheader] at hheader'
  exact ⟨hbuild, haccess, htok, s, hs, hhas, htext, hrestored, s', hs', hheader',
    hvisibility'.trans hvisibility, hstatic⟩

end Editor

end ModifierToggle
