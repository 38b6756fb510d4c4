import ModifierToggle.Proofs.LineViews

set_option autoImplicit false

/-! # Lines with tokens put into place

`Language.ShowsSame` compares two lines that are read after the same lines above them: they show the
same, and what is below them is read the same way. Putting a token into its place gives such a line,
under two conditions. A token that goes to the start of its line goes to the start of the text, so
that no comment may be open there; and a slash next to the token must not become the opening of a
comment when the token is gone (`LineEdit.place?_showsSame`). -/

namespace ModifierToggle

open Comment (Mode Reads strip stripLine)
open Text (EndsOutsideWord FirstStanding Rejoined)

theorem Comment.exists_mode (inBlock : Bool) :
    ∃ m : Mode, m.width = 0 ∧ ∀ x, stripLine inBlock x = strip m x := by
  cases inBlock with
  | false => exact ⟨.code, rfl, fun _ => rfl⟩
  | true => exact ⟨.block 0, rfl, fun _ => rfl⟩

namespace Language

variable {lang : Language}

theorem SeesSame.trans {code code' code'' : Text} (h : lang.SeesSame code code')
    (h' : lang.SeesSame code' code'') : lang.SeesSame code code'' :=
  ⟨h'.opens.trans h.opens, h'.words.trans h.words,
    fun hopens => (h'.visibility (h.opens.trans hopens)).trans (h.visibility hopens),
    fun hslash => h'.looseSlash (h.looseSlash hslash)⟩

/-- Two lines that are read after the same lines show the same, and both or neither leave a comment
    open. A header line also keeps its end. -/
structure ShowsSame (lang : Language) (inBlock : Bool) (x y : Text) : Prop where
  sees : lang.SeesSame (stripLine inBlock x).1 (stripLine inBlock y).1
  opened : (stripLine inBlock y).2 = (stripLine inBlock x).2
  last : (lang.findStart? (stripLine inBlock x).1).isSome = true → y.getLast? = x.getLast?

theorem ShowsSame.refl (lang : Language) (inBlock : Bool) (x : Text) :
    lang.ShowsSame inBlock x x := ⟨.refl _ _, rfl, fun _ => rfl⟩

theorem ShowsSame.trans {inBlock : Bool} {x y z : Text} (h : lang.ShowsSame inBlock x y)
    (h' : lang.ShowsSame inBlock y z) : lang.ShowsSame inBlock x z :=
  ⟨h.sees.trans h'.sees, h'.opened.trans h.opened,
    fun hopens => (h'.last (h.sees.opens.trans hopens)).trans (h.last hopens)⟩

/-! ## Where a token stands -/

/-- The first occurrence of `k` on a line stands behind `a` in the text and behind `before` in the
    code; `rest` is the code from the keyword on. -/
structure TokenAt (lang : Language) (m : Mode) (k x a c before after rest : Text)
    (opened : Bool) : Prop where
  text_eq : x = a ++ (k ++ c)
  reads : Reads m a before
  behind : strip .code c = (after ++ rest, opened)
  code_eq : strip m x = (lang.modifierPart (strip m x).1 ++ rest, opened)
  first : FirstStanding (· = k) true (lang.modifierPart (strip m x).1) before k after

theorem modifierPart_append (lang : Language) (code : Text) :
    ∃ rest, code = lang.modifierPart code ++ rest := by
  unfold modifierPart
  split
  · exact ⟨_, (List.take_append_drop _ _).symm⟩
  · exact ⟨[], (List.append_nil _).symm⟩

section

variable (hlang : lang.Customary) {tok : Token} (htok : tok ∈ lang.tokens)

include hlang htok

theorem tokenWord : tok.keyword ≠ [] ∧ ∀ b ∈ tok.keyword, Byte.isWord b = true :=
  ⟨Text.ne_nil_of_isHeaderWord (hlang.token_word tok htok).1,
    Text.isWord_of_isHeaderWord (hlang.token_word tok htok).1⟩

/-- A token is found where it first stands alone. -/
theorem find?_first {t before after : Text}
    (h : FirstStanding (· = tok.keyword) true t before tok.keyword after) :
    ∃ at_, tok.find? t = some at_ ∧ at_.start = before.length ∧
      at_.stop = before.length + tok.keyword.length := by
  have hfirst : FirstStanding (· ∈ tok.pattern.words) tok.pattern.atEnd t before tok.keyword
      after := by
    rw [hlang.token_atEnd tok htok, hlang.token_words tok htok]
    simpa only [List.mem_singleton] using h
  exact (hlang.token_plain htok).find?_first hfirst

/-- A token that is found stands in the text where it is found in the code. -/
theorem exists_tokenAt {m : Mode} (hm : m.width = 0) {x : Text} {at_ : Keyword.Occurrence}
    (h : tok.find? (lang.modifierPart (strip m x).1) = some at_) :
    ∃ a c before after rest opened,
      lang.TokenAt m tok.keyword x a c before after rest opened ∧ at_.start = a.length ∧
        at_.stop = a.length + tok.keyword.length := by
  obtain ⟨hne, hword⟩ := tokenWord hlang htok
  obtain ⟨rest, hrest⟩ := lang.modifierPart_append (strip m x).1
  rcases (hlang.token_plain htok).find?_cases (lang.modifierPart (strip m x).1) with
    ⟨hnone, -⟩ | ⟨before, w, after, at_', hfirst, hat, hstart, hstop⟩
  · exact absurd (hnone.symm.trans h) (by simp)
  · obtain rfl : at_' = at_ := Option.some.inj (hat.symm.trans h)
    rw [hlang.token_atEnd tok htok] at hfirst
    simp only [hlang.token_words tok htok, List.mem_singleton] at hfirst
    obtain rfl : w = tok.keyword := hfirst.holds
    have hcode : strip m x
        = (before ++ (tok.keyword ++ (after ++ rest)), (strip m x).2) := by
      refine Prod.ext ?_ rfl
      rw [hrest, hfirst.text_eq]
      simp only [List.append_assoc]
    obtain ⟨a, c, htext, hreads, hbehind⟩ := Comment.exists_word hcode hne hword
    have hlength : before.length = a.length := by rw [hreads.length_eq, hm, Nat.zero_add]
    exact ⟨a, c, before, after, rest, _, ⟨htext, hreads, hbehind, Prod.ext hrest rfl, hfirst⟩,
      hstart.trans hlength, by rw [hstop, hlength]⟩

end

/-- The text of a line with a keyword is split at the keyword. -/
theorem TokenAt.exists_keyword {m : Mode} {k x a c before after rest : Text} {opened : Bool}
    (h : lang.TokenAt m k x a c before after rest opened) (hlang : lang.Customary)
    {front keyword tail : Text}
    (hstart : FirstStanding (· ∈ lang.startWords) false (strip m x).1 front keyword tail) :
    rest = keyword ++ tail ∧ lang.modifierPart (strip m x).1 = front ∧ ∃ c₁ z,
      c = c₁ ++ (keyword ++ z) ∧ Reads .code c₁ after ∧ strip .code z = (tail, opened) := by
  have hpart := modifierPart_first hlang hstart
  have hrest : rest = keyword ++ tail := by
    have hcode := congrArg Prod.fst h.code_eq
    simp only at hcode
    rw [hpart] at hcode
    exact List.append_cancel_left (hcode.symm.trans hstart.text_eq)
  refine ⟨hrest, hpart, ?_⟩
  have hbehind := h.behind
  rw [hrest] at hbehind
  exact Comment.exists_word hbehind hstart.ne_nil hstart.isWord

/-! ## Lines that tokens can be moved on -/

/-- Where a token of the line goes to the start, no comment is open there, and where one is moved at
    all, no slash is loose. -/
structure Placeable (lang : Language) (inBlock : Bool) (x : Text) : Prop where
  startsInCode : ∀ tok ∈ lang.tokens, tok.placement = .lineStart →
    (tok.find? (lang.modifierPart (stripLine inBlock x).1)).isSome = true → inBlock = false
  noLooseSlash : ∀ tok ∈ lang.tokens, tok.placement ≠ .free →
    (tok.find? (lang.modifierPart (stripLine inBlock x).1)).isSome = true →
    (lang.modifierPart (stripLine inBlock x).1).hasLooseSlash = false

instance (lang : Language) (inBlock : Bool) (x : Text) : Decidable (lang.Placeable inBlock x) :=
  decidable_of_iff (_ ∧ _) ⟨fun h => Placeable.mk h.1 h.2,
    fun h => ⟨h.startsInCode, h.noLooseSlash⟩⟩

/-- A token is found if it is one of the words. -/
theorem find?_modifierPart_isSome (hlang : lang.Customary) {tok : Token} (htok : tok ∈ lang.tokens)
    (code : Text) :
    (tok.find? (lang.modifierPart code)).isSome = true ↔ tok.keyword ∈ lang.modifierWords code := by
  rw [Token.find?, (hlang.token_plain htok).find?_isSome, hlang.token_atEnd tok htok,
    hlang.token_words tok htok]
  simp [modifierWords]

theorem ShowsSame.placeable {inBlock : Bool} {x y : Text} (h : lang.ShowsSame inBlock x y)
    (hlang : lang.Customary) (hx : lang.Placeable inBlock x) : lang.Placeable inBlock y := by
  have hfound : ∀ tok ∈ lang.tokens,
      (tok.find? (lang.modifierPart (stripLine inBlock y).1)).isSome = true →
      (tok.find? (lang.modifierPart (stripLine inBlock x).1)).isSome = true := by
    intro tok htok
    rw [find?_modifierPart_isSome hlang htok, find?_modifierPart_isSome hlang htok]
    exact h.sees.words.mem_iff.1
  exact ⟨fun tok htok hplace hfind => hx.startsInCode tok htok hplace (hfound tok htok hfind),
    fun tok htok hplace hfind =>
      h.sees.looseSlash (hx.noLooseSlash tok htok hplace (hfound tok htok hfind))⟩

/-! ## Moving to the start of the line -/

/-- The line `y` is the line `x` with its first `k` moved behind the indentation `blanks`. What is
    left without it is `t` of the text, and `code` of the code. -/
structure MovedToStart (lang : Language) (k x y blanks a c before after rest t code : Text)
    (opened : Bool) : Prop where
  token : lang.TokenAt .code k x (blanks ++ a) c (blanks ++ before) after rest opened
  isBlank : ∀ b ∈ blanks, Byte.isBlank b = true
  front_ne_nil : a ≠ []
  indent_eq : x.indent = blanks.length
  text_rejoined : Rejoined a c t
  code_rejoined : Rejoined before (after ++ rest) code
  length_eq : code.length + (a.length + c.length)
    = t.length + (before.length + (after ++ rest).length)
  line_eq : y = blanks ++ (k ++ Byte.space :: t)
  strip_eq : strip .code y = (blanks ++ (k ++ Byte.space :: code), opened)

namespace MovedToStart

variable {k x y blanks a c before after rest t code : Text} {opened : Bool}
  (h : lang.MovedToStart k x y blanks a c before after rest t code opened)

include h

/-- Both texts are split at the keyword of a header line. -/
theorem exists_keyword (hlang : lang.Customary) {front keyword tail : Text}
    (hstart : FirstStanding (· ∈ lang.startWords) false (strip .code x).1 front keyword tail) :
    rest = keyword ++ tail ∧ lang.modifierPart (strip .code x).1 = front ∧
      ∃ c₁ z t₁ code₁, c = c₁ ++ (keyword ++ z) ∧ Reads .code c₁ after ∧
        strip .code z = (tail, opened) ∧ t = t₁ ++ (keyword ++ z) ∧ Rejoined a c₁ t₁ ∧
        code = code₁ ++ (keyword ++ tail) ∧ Rejoined before after code₁ ∧
        code₁.length = t₁.length := by
  obtain ⟨rfl, hpart, c₁, z, rfl, hreads, hz⟩ := h.token.exists_keyword hlang hstart
  have hfirst : FirstStanding (· = k) true front (blanks ++ before) k after := hpart ▸ h.token.first
  have hafter : after ≠ [] := hfirst.after_ne_nil hstart.before_ends
  have hlength : after.length = c₁.length := by simpa [Mode.width] using hreads.length_eq
  have hc₁ : c₁ ≠ [] := by
    rintro rfl
    exact hafter (List.length_eq_zero_iff.1 hlength)
  obtain ⟨t₁, rfl, ht₁⟩ := h.text_rejoined.exists_back hc₁
  obtain ⟨code₁, rfl, hcode₁⟩ := h.code_rejoined.exists_back hafter
  refine ⟨rfl, hpart, c₁, z, t₁, code₁, rfl, hreads, hz, rfl, ht₁, rfl, hcode₁, ?_⟩
  have hbefore := h.token.reads.length_eq
  have hlost := h.length_eq
  simp only [Mode.width, List.length_append] at hbefore hlost
  omega

theorem showsSame (hlang : lang.Customary) (hk : lang.IsModifierWord k)
    (hvis : lang.isVisibility k = false)
    (hslash : (lang.modifierPart (strip .code x).1).hasLooseSlash = false) :
    lang.ShowsSame false x y := by
  have hfirst := h.token.first
  have hbefore : (blanks ++ before).getLast? ≠ some Byte.slash :=
    Text.not_slash_before_word hfirst.isWord hfirst.after_closes (hfirst.text_eq ▸ hslash)
  have hopened : (strip .code y).2 = (strip .code x).2 := by rw [h.strip_eq, h.token.code_eq]
  rcases lang.start_cases (strip .code x).1 with hnone | ⟨front, keyword, tail, hstart⟩
  · have hrest : rest = [] := by
      have hcode := congrArg Prod.fst h.token.code_eq
      simp only [modifierPart_eq_self hlang hnone] at hcode
      exact List.self_eq_append_right.1 hcode
    have hcode := h.code_rejoined
    rw [hrest, List.append_nil] at hcode
    rw [modifierPart_eq_self hlang hnone] at hfirst
    refine ⟨?_, hopened, fun hsome => ?_⟩
    · rw [stripLine, stripLine]
      simp only [Bool.false_eq_true, if_false, h.strip_eq]
      exact .toStart_noStart hlang hk hnone hfirst rfl h.isBlank hcode hbefore
    · rw [stripLine] at hsome
      simp only [Bool.false_eq_true, if_false] at hsome
      rw [findStart?_eq_none hlang hnone] at hsome
      cases hsome
  · obtain ⟨rfl, hpart, c₁, z, t₁, code₁, rfl, -, -, ht, -, hcode, hcode₁, -⟩ :=
      h.exists_keyword hlang hstart
    rw [hpart] at hfirst
    refine ⟨?_, hopened, fun _ => ?_⟩
    · rw [stripLine, stripLine]
      simp only [Bool.false_eq_true, if_false, h.strip_eq]
      have hsees := SeesSame.toStart_first hlang hvis hstart hfirst rfl h.isBlank hcode₁ hbefore
      rw [hcode]
      simpa only [List.append_assoc, List.cons_append] using hsees
    · have hlast : (blanks ++ k ++ [Byte.space] ++ t₁ ++ (keyword ++ z)).getLast?
          = (blanks ++ a ++ k ++ c₁ ++ (keyword ++ z)).getLast? :=
        Text.getLast?_congr (by simp [hstart.ne_nil])
      simpa [h.line_eq, h.token.text_eq, ht] using hlast

end MovedToStart

/-! ## Moving in front of the keyword -/

/-- The line `y` is the line `x` with its first `k` moved in front of the keyword that opens the
    declaration. What stands before it then is `t` of the text, and `code` of the code. -/
structure MovedBefore (lang : Language) (m : Mode) (k x y : Text)
    (front keyword tail before after t d code : Text) : Prop where
  start : FirstStanding (· ∈ lang.startWords) false (strip m x).1 front keyword tail
  first : FirstStanding (· = k) true front before k after
  code_rejoined : Rejoined before after code
  strip_eq : strip m y = (code ++ (k ++ Byte.space :: (keyword ++ tail)), (strip m x).2)
  line_eq : y = t ++ (k ++ Byte.space :: d)
  length_eq : code.length = t.length
  last : y.getLast? = x.getLast?

end Language

/-! ## The line edits -/

namespace LineEdit

/-- A line is left to others if the token is not found on it. -/
theorem place?_eq_none_iff {lang : Language} {tok : Token} {r : LineEdit}
    (hr : place? lang tok = some r) (l : CodeLine) :
    r l = none ↔ tok.find? (l.searchable lang) = none := by
  unfold place? at hr
  split at hr
  · cases hr
  all_goals
    obtain rfl := Option.some.inj hr
    exact Option.map_eq_none_iff

/-- Only a token that is found is put into its place. -/
theorem find?_isSome_of_place? {lang : Language} {tok : Token} {r : LineEdit}
    (hr : place? lang tok = some r) {l : CodeLine} {y : Text} (h : r l = some y) :
    (tok.find? (l.searchable lang)).isSome = true := by
  rw [Option.isSome_iff_ne_none, ne_eq, ← place?_eq_none_iff hr, h]
  simp

section

variable {lang : Language} (hlang : lang.Customary) {tok : Token} (htok : tok ∈ lang.tokens)
  {n : Nat} {x y : Text}

include hlang htok

/-- A token stands in the text where it is found, and is left there or moved to the start of the
    line. -/
theorem moveToLineStart_tokenAt
    (h : moveToLineStart lang tok ⟨n, x, (strip .code x).1⟩ = some y) :
    ∃ at_ a c before after rest opened,
      tok.find? (lang.modifierPart (strip .code x).1) = some at_ ∧
      lang.TokenAt .code tok.keyword x a c before after rest opened ∧
      at_.start = a.length ∧ at_.stop = a.length + tok.keyword.length ∧
      (y = x ∧ x.indent ≤ at_.start ∧ (x.slice x.indent at_.start).words.all annotates = true ∨
        x.indent ≠ a.length ∧
          y = insertAt (cut x a.length (a.length + tok.keyword.length)) tok.keyword x.indent) := by
  obtain ⟨at_, hat, hy⟩ := Option.map_eq_some_iff.1 h
  obtain ⟨a, c, before, after, rest, opened, htoken, hstart, hstop⟩ :=
    Language.exists_tokenAt hlang htok rfl hat
  refine ⟨at_, a, c, before, after, rest, opened, hat, htoken, hstart, hstop, ?_⟩
  split at hy
  · next hleads =>
    rw [Bool.and_eq_true, decide_eq_true_eq] at hleads
    exact Or.inl ⟨hy.symm, hleads⟩
  · next hmoves =>
    rw [hstart, hstop] at hy
    refine Or.inr ⟨fun hindent => hmoves ?_, hy.symm⟩
    rw [hstart, hindent, all_annotates_slice_self, Bool.and_true]
    exact decide_eq_true (Nat.le_refl a.length)

/-- A token is at the start of its line already, or is moved there from where it is found. -/
theorem moveToLineStart_cases
    (hslash : (lang.modifierPart (strip .code x).1).hasLooseSlash = false)
    (h : moveToLineStart lang tok ⟨n, x, (strip .code x).1⟩ = some y) :
    y = x ∨ ∃ blanks a c before after rest t code opened at_,
      lang.MovedToStart tok.keyword x y blanks a c before after rest t code opened ∧
      tok.find? (lang.modifierPart (strip .code x).1) = some at_ ∧
      at_.start = (blanks ++ a).length ∧ at_.stop = (blanks ++ a).length + tok.keyword.length := by
  obtain ⟨at_, a, c, before, after, rest, opened, hat, htoken, hstart, hstop,
    ⟨hy, -⟩ | ⟨hmoved, hy⟩⟩ := moveToLineStart_tokenAt hlang htok h
  · exact Or.inl hy
  · right
    have hfirst := htoken.first
    have hclear : Text.EndsClear before :=
      Text.endsClear_of_hasLooseSlash hfirst.isWord hfirst.after_closes (hfirst.text_eq ▸ hslash)
    obtain ⟨blanks, a₂, before₂, t, code, rfl, hblanks, hne, hindent, rfl, ht, hcode, hlength,
      hline, hstrip⟩ := Comment.strip_movedToStart htoken.text_eq htoken.reads htoken.behind
        hfirst.isWord hfirst.ne_nil hclear hmoved
    rw [hline] at hy
    exact ⟨blanks, a₂, c, before₂, after, rest, t, code, opened, at_,
      ⟨htoken, hblanks, hne, hindent, ht, hcode, hlength, hy, hy ▸ hstrip⟩, hat, hstart, hstop⟩

theorem moveToLineStart_showsSame
    (hslash : (lang.modifierPart (strip .code x).1).hasLooseSlash = false)
    (h : moveToLineStart lang tok ⟨n, x, (strip .code x).1⟩ = some y) :
    lang.ShowsSame false x y := by
  rcases moveToLineStart_cases hlang htok hslash h with
    rfl | ⟨blanks, a, c, before, after, rest, t, code, opened, -, hmoved, -⟩
  · exact .refl _ _ _
  · exact hmoved.showsSame hlang (hlang.token_word tok htok) (hlang.token_notVisibility tok htok)
      hslash

/-- A token on a line without a keyword is left alone; on a line with one, it stands before the
    keyword already, or is moved there. -/
theorem moveBeforeKeyword_cases {m : Mode} (hm : m.width = 0)
    (hslash : (lang.modifierPart (strip m x).1).hasLooseSlash = false)
    (h : moveBeforeKeyword lang tok ⟨n, x, (strip m x).1⟩ = some y) :
    lang.findStart? (strip m x).1 = none ∧ y = x ∨
      (∃ at_ keywordAt, tok.find? (lang.modifierPart (strip m x).1) = some at_ ∧
        lang.findStart? (strip m x).1 = some keywordAt ∧
        x.skipBlanks at_.stop = keywordAt.start ∧ y = x) ∨
      ∃ front keyword tail before after t d code,
        lang.MovedBefore m tok.keyword x y front keyword tail before after t d code := by
  obtain ⟨at_, hat, hy⟩ := Option.map_eq_some_iff.1 h
  obtain ⟨a, c, before, after, rest, opened, htoken, hstart, hstop⟩ :=
    Language.exists_tokenAt hlang htok hm hat
  rcases lang.start_cases (strip m x).1 with hnone | ⟨front, keyword, tail, hfirst⟩
  · have hnone := Language.findStart?_eq_none hlang hnone
    rw [CodeLine.start?, hnone] at hy
    exact Or.inl ⟨hnone, hy.symm⟩
  · right
    obtain ⟨keywordAt, hkeyword, hkeywordStart⟩ := Language.findStart?_first hlang hfirst
    obtain ⟨rfl, hpart, -⟩ := htoken.exists_keyword hlang hfirst
    have htokenFirst : FirstStanding (· = tok.keyword) true front before tok.keyword after :=
      hpart ▸ htoken.first
    have hposition : keywordAt.start = a.length + tok.keyword.length + after.length := by
      have hlength := htoken.reads.length_eq
      rw [hm] at hlength
      rw [hkeywordStart, htokenFirst.text_eq]
      simp only [List.length_append]
      omega
    rw [CodeLine.start?, hkeyword] at hy
    simp only at hy
    split at hy
    · next hplaced => exact Or.inl ⟨at_, keywordAt, hat, hkeyword, hplaced, hy.symm⟩
    · right
      rw [hpart] at hslash
      have hclear : Text.EndsClear before :=
        Text.endsClear_of_hasLooseSlash htokenFirst.isWord htokenFirst.after_closes
          (htokenFirst.text_eq ▸ hslash)
      obtain ⟨code, t, d, hcode, hstrip, hline, hlength, hlast⟩ :=
        Comment.strip_movedBefore htoken.text_eq htoken.reads htoken.behind htokenFirst.isWord
          htokenFirst.ne_nil ⟨keyword, tail, rfl, hfirst.ne_nil, hfirst.isWord⟩ hclear
          (htokenFirst.after_ne_nil hfirst.before_ends)
      rw [hstart, hstop, hposition] at hy
      rw [hy] at hstrip hline hlast
      rw [hm, Nat.zero_add] at hlength
      have hopened : opened = (strip m x).2 := (congrArg Prod.snd htoken.code_eq).symm
      rw [hopened] at hstrip
      exact ⟨front, keyword, tail, before, after, t, d, code,
        ⟨hfirst, htokenFirst, hcode, hstrip, hline, hlength, hlast⟩⟩

theorem moveBeforeKeyword_showsSame {inBlock : Bool}
    (hslash : (lang.modifierPart (stripLine inBlock x).1).hasLooseSlash = false)
    (h : moveBeforeKeyword lang tok ⟨n, x, (stripLine inBlock x).1⟩ = some y) :
    lang.ShowsSame inBlock x y := by
  obtain ⟨m, hm, hstripLine⟩ := Comment.exists_mode inBlock
  rw [hstripLine] at hslash h
  rcases moveBeforeKeyword_cases hlang htok hm hslash h with
    ⟨-, rfl⟩ | ⟨-, -, -, -, -, rfl⟩ |
      ⟨front, keyword, tail, before, after, t, d, code, hmoved⟩
  · exact .refl _ _ _
  · exact .refl _ _ _
  · rw [Language.modifierPart_first hlang hmoved.start] at hslash
    refine ⟨?_, ?_, fun _ => hmoved.last⟩
    · simp only [hstripLine, hmoved.strip_eq]
      exact .beforeKeyword hlang (hlang.token_notVisibility tok htok) hmoved.start hmoved.first
        hmoved.code_rejoined hslash
    · rw [hstripLine, hstripLine, hmoved.strip_eq]

/-- **Putting a token into its place shows the same,** if the line lets it be put there. -/
theorem place?_showsSame {inBlock : Bool} (hx : lang.Placeable inBlock x) {r : LineEdit}
    (hr : place? lang tok = some r) (h : r ⟨n, x, (stripLine inBlock x).1⟩ = some y) :
    lang.ShowsSame inBlock x y := by
  have hfound : (tok.find? (lang.modifierPart (stripLine inBlock x).1)).isSome = true :=
    find?_isSome_of_place? hr h
  unfold place? at hr
  split at hr
  · cases hr
  · next hplacement =>
    obtain rfl := Option.some.inj hr
    obtain rfl := hx.startsInCode tok htok hplacement hfound
    exact moveToLineStart_showsSame hlang htok
      (hx.noLooseSlash tok htok (by simp [hplacement]) hfound) h
  · next hplacement =>
    obtain rfl := Option.some.inj hr
    exact moveBeforeKeyword_showsSame hlang htok
      (hx.noLooseSlash tok htok (by simp [hplacement]) hfound) h

end

end LineEdit

end ModifierToggle
