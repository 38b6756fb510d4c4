import ModifierToggle.Proofs.FirstOccurrence
import ModifierToggle.Proofs.InsertedText
import ModifierToggle.Proofs.KeptDeclaration

set_option autoImplicit false

/-! # Tokens that stay where they were put

A token that goes to the start of its line is in its place if only annotations stand before it
(`CodeLine.TokenLeads`), and one that goes to the keyword if only blanks stand between the two
(`CodeLine.TokenCloses`). Nothing moves it then. Putting a token into its place once leaves it
there, so that doing it again changes nothing (`Editor.fixPlacement_settles`), however the line is
spaced.

The token is searched for again the second time, and the first occurrence is taken. At the start of
the line the one that was moved is the first. In front of the keyword it is not if the line holds
another one, and the code may show less of the line if a slash gets to stand before another. -/

namespace ModifierToggle

open Comment (Mode Reads strip stripLine openAfter)
open Keyword (StandsAt)
open Text (EndsOutsideWord ClosesWord FirstStanding Rejoined)

/-! ## Lines with the token in its place -/

namespace CodeLine

/-- Between the indentation and the first occurrence of the token stand only annotations. -/
def TokenLeads (lang : Language) (tok : Token) (l : CodeLine) : Prop :=
  ∃ at_, tok.find? (l.searchable lang) = some at_ ∧ l.text.indent ≤ at_.start ∧
    (l.text.slice l.text.indent at_.start).words.all LineEdit.annotates = true

/-- Between the first occurrence of the token and the keyword that opens the declaration stand only
    blanks. -/
def TokenCloses (lang : Language) (tok : Token) (l : CodeLine) : Prop :=
  ∃ at_ keywordAt, tok.find? (l.searchable lang) = some at_ ∧ l.start? lang = some keywordAt ∧
    at_.stop ≤ keywordAt.start ∧
    ∀ b ∈ l.text.slice at_.stop keywordAt.start, Byte.isBlank b = true

/-- The token stands alone at one place of the line at most. -/
def HoldsOnce (lang : Language) (tok : Token) (l : CodeLine) : Prop :=
  ∀ i j, StandsAt true tok.keyword (l.searchable lang) i →
    StandsAt true tok.keyword (l.searchable lang) j → i = j

/-- A line that has the token once among its words holds it once. -/
theorem holdsOnce_of_count {name base : Text} {opts : LanguageOptions} {lang : Language}
    (hbuild : Language.build name base opts = .ok lang) {tok : Token} (htok : tok ∈ lang.tokens)
    {l : CodeLine} (h : (l.searchable lang).standing.count tok.keyword ≤ 1) :
    l.HoldsOnce lang tok := by
  have hk := ((Language.build_soundKeywords hbuild).1.2.1 tok htok).2.1
  have hword := Text.isWord_of_isHeaderWord hk
  have hne := Text.ne_nil_of_isHeaderWord hk
  have hnotBefore : ∀ i j, StandsAt true tok.keyword (l.searchable lang) i →
      StandsAt true tok.keyword (l.searchable lang) j → j ≤ i := by
    intro i j hi hj
    by_contra hlt
    obtain ⟨u, v, htext, rfl, hu, hv, -⟩ := (Keyword.standsAt_iff hne).1 hj
    rw [htext] at hi h
    have hmem :=
      Keyword.mem_standing_of_standsAt_lt hu hword hne hword hne (Nat.lt_of_not_le hlt) hi
    have hpos := List.count_pos_iff.2 hmem
    rw [Text.standing_split hu hword hne hv fun _ => rfl, List.count_append,
      List.count_cons_self] at h
    omega
  exact fun i j hi hj => Nat.le_antisymm (hnotBefore j i hj hi) (hnotBefore i j hi hj)

end CodeLine

theorem Text.isBlank_skipped {t : Text} {i j : Nat} (h : t.skipBlanks i = j) :
    i ≤ j ∧ ∀ b ∈ t.slice i j, Byte.isBlank b = true := by
  have hslice : t.slice i j = (t.drop i).takeWhile Byte.isBlank := by
    rw [slice, List.drop_take, ← h, skipBlanks, Nat.add_sub_cancel_left]
    exact (List.prefix_iff_eq_take.1 (List.takeWhile_prefix _)).symm
  refine ⟨h ▸ Nat.le_add_right i _, fun b hb => ?_⟩
  rw [hslice] at hb
  exact List.mem_takeWhile_imp hb

namespace LineEdit

variable {lang : Language} {tok : Token} {l : CodeLine}

theorem moveToLineStart_of_leads (h : l.TokenLeads lang tok) :
    moveToLineStart lang tok l = some l.text := by
  obtain ⟨at_, hat, hindent, hwords⟩ := h
  rw [moveToLineStart, hat, Option.map_some, hwords, Bool.and_true,
    if_pos (decide_eq_true hindent)]

theorem moveBeforeKeyword_of_closes (hl : l.Aligned lang) (h : l.TokenCloses lang tok) :
    moveBeforeKeyword lang tok l = some l.text := by
  obtain ⟨at_, keywordAt, hat, hkeyword, hle, hblanks⟩ := h
  obtain ⟨front, back, htext, hfront, -, -, hhead⟩ := hl.exists_declaration hkeyword
  have hgap : l.text.slice at_.stop keywordAt.start = front.drop at_.stop := by
    rw [Text.slice, htext, ← hfront, List.take_left]
  have hskip : l.text.skipBlanks at_.stop = keywordAt.start := by
    rw [hgap] at hblanks
    rw [Text.skipBlanks, htext, List.drop_append_of_le_length (by omega),
      Text.indent_blanks hblanks hhead, List.length_drop]
    omega
  rw [moveBeforeKeyword, hat, Option.map_some, hkeyword]
  simp only [hskip, if_true]

theorem moveBeforeKeyword_of_noStart (h : l.start? lang = none)
    (hfound : (tok.find? (l.searchable lang)).isSome = true) :
    moveBeforeKeyword lang tok l = some l.text := by
  obtain ⟨at_, hat⟩ := Option.isSome_iff_exists.1 hfound
  rw [moveBeforeKeyword, hat, Option.map_some, h]

end LineEdit

/-! ## Lines after the token has been moved -/

/-- A line is read as it is written up to a byte that is no carriage return, whatever is behind. -/
theorem Text.ReadAs.exists_behind {x u t z : Text} {b : UInt8} (hb : b ≠ Byte.carriageReturn)
    (h : x.ReadAs (u ++ b :: t) z) : ∃ t', z = u ++ b :: t' := by
  rcases h with rfl | ⟨hreturn, -⟩
  · exact ⟨t, rfl⟩
  · rcases List.eq_nil_or_concat' t with rfl | ⟨t', c, rfl⟩
    · exact absurd (List.append_inj' hreturn rfl).2 (by simpa using hb)
    · have hsplit : (u ++ b :: t') ++ [c] = z ++ [Byte.carriageReturn] := by simpa using hreturn
      exact ⟨t', (List.append_inj' hsplit rfl).1.symm⟩

theorem Text.ReadAs.eq_of_getLast? {x y z : Text} (h : x.ReadAs y z)
    (hlast : y.getLast? = x.getLast?) : z = y := by
  rcases h with rfl | ⟨rfl, hreturn⟩
  · rfl
  · exact absurd (hlast ▸ List.getLast?_concat) hreturn

namespace Language

variable {lang : Language} (hlang : lang.Customary) {tok : Token} (htok : tok ∈ lang.tokens)

include hlang

/-- A text without a keyword in it, put in front, is searched too. -/
theorem modifierPart_passes {u : Text} (hu : EndsOutsideWord u)
    (hmiss : ∀ w ∈ u.standing, w ∉ lang.startWords) (t : Text) :
    lang.modifierPart (u ++ t) = u ++ lang.modifierPart t := by
  rw [modifierPart, modifierPart, findStart?_passes hlang hu hmiss]
  cases lang.findStart? t with
  | none => rfl
  | some at_ =>
    simp only [Option.map_some, Keyword.Occurrence.shift]
    rw [Nat.add_comm, List.take_length_add_append]

include htok

/-- A token right behind the indentation is the first one on its line. -/
theorem tokenLeads_behindBlanks {blanks : Text} (hblanks : ∀ b ∈ blanks, Byte.isBlank b = true)
    (n : Nat) (t : Text) :
    let x := blanks ++ (tok.keyword ++ Byte.space :: t)
    CodeLine.TokenLeads lang tok ⟨n, x, (strip .code x).1⟩ := by
  intro x
  obtain ⟨hne, hword⟩ := tokenWord hlang htok
  have hcode : (strip .code x).1
      = blanks ++ (tok.keyword ++ [Byte.space]) ++ (strip .code t).1 := by
    have hslash : ∀ b ∈ blanks, b ≠ Byte.slash := fun b hb =>
      Byte.ne_slash_of_isSeparator (Byte.isSeparator_of_isBlank (hblanks b hb))
    rw [Comment.strip_append hslash, Comment.strip_word_space hword]
    simp
  have hends : EndsOutsideWord blanks := fun b hb =>
    Byte.isWord_of_isSeparator (Byte.isSeparator_of_isBlank (hblanks b (List.mem_of_getLast? hb)))
  have hnone : blanks.standing = [] := Text.standing_blanks_behind [] hblanks
  have hstanding : (blanks ++ (tok.keyword ++ [Byte.space])).standing = [tok.keyword] := by
    rw [Text.standing_insertWord hends hword hne, hnone]
    rfl
  have hpart : lang.modifierPart (strip .code x).1
      = blanks ++ (tok.keyword ++ Byte.space :: lang.modifierPart (strip .code t).1) := by
    rw [hcode, modifierPart_passes hlang]
    · simp
    · rw [← List.append_assoc]
      exact Text.endsOutsideWord_snoc (by decide)
    · rw [hstanding]
      simpa using (hlang.token_word tok htok).2
  have hfirst : FirstStanding (· = tok.keyword) true (lang.modifierPart (strip .code x).1) blanks
      tok.keyword (Byte.space :: lang.modifierPart (strip .code t).1) := by
    refine ⟨hpart, hends, hword, hne, Text.closesWord_space _, fun _ => rfl, rfl, ?_⟩
    rw [hnone]
    simp
  have hindent : x.indent = blanks.length := by
    obtain ⟨b, k, hk⟩ := List.exists_cons_of_ne_nil hne
    refine Text.indent_blanks hblanks ?_
    rw [hk]
    simpa using Byte.isBlank_of_isWord (hword b (hk ▸ List.mem_cons_self))
  obtain ⟨at_, hat, hstart, -⟩ := find?_first hlang htok hfirst
  refine ⟨at_, hat, ?_, ?_⟩
  · exact (hindent.trans hstart.symm).le
  · simp only [hstart, hindent]
    exact LineEdit.all_annotates_slice_self x blanks.length

/-- A token that has been moved in front of the keyword is the first one there, if no other is
    between its old place and the keyword. -/
theorem MovedBefore.closes {m : Mode} {x y front keyword tail before after t d code : Text}
    (h : lang.MovedBefore m tok.keyword x y front keyword tail before after t d code)
    (honce : tok.keyword ∉ after.standing) (n : Nat) :
    CodeLine.TokenCloses lang tok ⟨n, y, (strip m y).1⟩ := by
  have hfront : EndsOutsideWord (before ++ tok.keyword ++ after) := by
    rw [List.append_assoc, ← h.first.text_eq]
    exact h.start.before_ends
  have hends : EndsOutsideWord code := h.code_rejoined.endsOutsideWord h.first.before_ends
    hfront.of_append (h.first.after_ne_nil h.start.before_ends)
  have hstanding : code.standing = before.standing ++ after.standing :=
    h.code_rejoined.standing_eq h.first.before_ends h.first.after_closes fun _ => rfl
  have hcode : (strip m y).1 = code ++ (tok.keyword ++ [Byte.space]) ++ (keyword ++ tail) := by
    rw [h.strip_eq]
    simp
  have hwords : ∀ v ∈ (code ++ (tok.keyword ++ [Byte.space])).standing, v ∈ front.standing := by
    rw [Text.standing_insertWord hends h.first.isWord h.first.ne_nil, hstanding,
      h.first.standing_eq]
    simp only [List.mem_append, List.mem_cons]
    rintro v ((hv | hv) | rfl | hv)
    · exact Or.inl hv
    · exact Or.inr (Or.inr hv)
    · exact Or.inr (Or.inl rfl)
    · cases hv
  have hspaced : EndsOutsideWord (code ++ (tok.keyword ++ [Byte.space])) := by
    rw [← List.append_assoc]
    exact Text.endsOutsideWord_snoc (by decide)
  have hstart := h.start.withFront hspaced hwords
  rw [← hcode] at hstart
  have hpart := modifierPart_first hlang hstart
  have hfirst : FirstStanding (· = tok.keyword) true (lang.modifierPart (strip m y).1) code
      tok.keyword [Byte.space] := by
    refine ⟨hpart, hends, h.first.isWord, h.first.ne_nil, Text.closesWord_space [], fun _ => rfl,
      rfl, fun v hv heq => ?_⟩
    rw [hstanding] at hv
    rcases List.mem_append.1 hv with hv | hv
    · exact h.first.first v hv heq
    · exact honce (heq ▸ hv)
  obtain ⟨at_, hat, -, hstop⟩ := find?_first hlang htok hfirst
  obtain ⟨keywordAt, hkeyword, hkeywordStart⟩ := findStart?_first hlang hstart
  have hnext : keywordAt.start = at_.stop + 1 := by
    rw [hkeywordStart, hstop, List.length_append, List.length_append, Nat.add_assoc]
    rfl
  have hgap : y.slice at_.stop keywordAt.start = [Byte.space] := by
    have hline : y = (t ++ tok.keyword) ++ Byte.space :: d := by rw [h.line_eq, List.append_assoc]
    have hlength : at_.stop = (t ++ tok.keyword).length := by
      rw [hstop, h.length_eq, List.length_append]
    rw [Text.slice, List.drop_take, hnext, Nat.add_sub_cancel_left, hline, hlength,
      List.drop_left]
    rfl
  refine ⟨at_, keywordAt, hat, hkeyword, by omega, ?_⟩
  simp only [hgap]
  exact List.forall_mem_singleton.2 rfl

end Language

/-- Behind the first place where a word stands, it does not stand again if it stands only once. -/
theorem Text.FirstStanding.notMem_after {k part before after : Text}
    (h : FirstStanding (· = k) true part before k after)
    (honce : ∀ i j, StandsAt true k part i → StandsAt true k part j → i = j) :
    k ∉ after.standing := by
  intro hmem
  obtain ⟨u, w, v, hagain⟩ := exists_firstStanding (q := (· = k)) ⟨k, hmem, rfl⟩
  obtain rfl : w = k := hagain.holds
  have hpos := List.length_pos_iff.2 h.ne_nil
  have hu : u ≠ [] := by
    rintro rfl
    obtain ⟨b, w', rfl⟩ := List.exists_cons_of_ne_nil h.ne_nil
    have hsep := h.after_closes b (by rw [hagain.text_eq]; rfl)
    have hword := Byte.isWord_of_isSeparator hsep
    rw [h.isWord b List.mem_cons_self] at hword
    cases hword
  have hhere : StandsAt true w part before.length :=
    (Keyword.standsAt_iff h.ne_nil).2
      ⟨before, after, h.text_eq, rfl, h.before_ends, h.after_closes, fun _ => rfl⟩
  have hthere : StandsAt true w part (before ++ w ++ u).length := by
    refine (Keyword.standsAt_iff h.ne_nil).2
      ⟨before ++ w ++ u, v, ?_, rfl, .append (fun hnil => absurd hnil hu) hagain.before_ends,
        hagain.after_closes, fun _ => rfl⟩
    rw [h.text_eq, hagain.text_eq]
    simp
  have heq := honce _ _ hhere hthere
  simp only [List.length_append] at heq
  omega

/-- The code before a keyword is the text there, if no slash stands in it. -/
theorem Comment.front_eq_take {m : Mode} (hm : m.width = 0) {x front w tail : Text}
    (hcode : (strip m x).1 = front ++ (w ++ tail)) (hne : w ≠ [])
    (hw : ∀ b ∈ w, Byte.isWord b = true) (hslash : Byte.slash ∉ x.take front.length) :
    front = x.take front.length := by
  obtain ⟨a, d, rfl, hreads, -⟩ := exists_word (Prod.ext hcode rfl) hne hw
  have hlength := hreads.length_eq
  rw [hm, Nat.zero_add] at hlength
  rw [hlength, List.take_left] at hslash ⊢
  have hreads' : Reads m ([] ++ a) front := hreads
  obtain ⟨code, rfl, hnil⟩ := hreads'.append_inv fun b hb heq => hslash (heq ▸ hb)
  obtain rfl : code = [] := List.length_eq_zero_iff.1 (by rw [hnil.length_eq, hm]; rfl)
  rfl

namespace CodeLine

variable {lang lang₀ : Language}

theorem searchable_congr (h : lang₀.declarationStart = lang.declarationStart) (l : CodeLine) :
    l.searchable lang = l.searchable lang₀ := Language.modifierPart_congr h l.code

theorem start?_congr (h : lang₀.declarationStart = lang.declarationStart) (l : CodeLine) :
    l.start? lang = l.start? lang₀ := Language.findStart?_congr h l.code

end CodeLine

namespace LineEdit

/-- The line `l'` is what becomes of `l` when the token goes to the keyword: it stands before it, or
    there is no keyword and the line is left alone. -/
def PlacedBefore (lang : Language) (tok : Token) (l l' : CodeLine) : Prop :=
  l'.TokenCloses lang tok ∨
    l.start? lang = none ∧ moveBeforeKeyword lang tok l' = some l'.text

theorem PlacedBefore.kept {lang : Language} {tok : Token} {l l' : CodeLine}
    (hl' : l'.Aligned lang) (h : PlacedBefore lang tok l l') :
    moveBeforeKeyword lang tok l' = some l'.text := by
  rcases h with hcloses | ⟨-, hkept⟩
  · exact moveBeforeKeyword_of_closes hl' hcloses
  · exact hkept

variable {name base : Text} {opts : LanguageOptions} {lang : Language}
  (hbuild : Language.build name base opts = .ok lang) {tok : Token} (htok : tok ∈ lang.tokens)
  {n : Nat} {x y : Text}

include hbuild htok

/-- A token that has been put to the start of its line leads it. -/
theorem moveToLineStart_leads (h : moveToLineStart lang tok ⟨n, x, (strip .code x).1⟩ = some y)
    {z : Text} (hz : x.ReadAs y z) :
    CodeLine.TokenLeads lang tok ⟨n, z, (strip .code z).1⟩ := by
  obtain ⟨lang₀, hlang, hstart, htokens⟩ := Language.exists_customary hbuild
  rw [← htokens] at htok
  simp only [CodeLine.TokenLeads, moveToLineStart, CodeLine.searchable_congr hstart] at h ⊢
  obtain ⟨at_, a, c, before, after, rest, opened, hat, htoken, -, -,
    ⟨rfl, hleads⟩ | ⟨hmoved, hy⟩⟩ := moveToLineStart_tokenAt hlang htok h
  · obtain rfl := hz.eq_of_getLast? rfl
    exact ⟨at_, hat, hleads⟩
  · obtain ⟨blanks, a₂, t, -, hblanks, -, -, -, hline⟩ :=
      exists_movedToStart htoken.text_eq htoken.first.isWord htoken.first.ne_nil hmoved
    have hread : x.ReadAs (blanks ++ tok.keyword ++ Byte.space :: t) z := by
      rwa [List.append_assoc, ← hline, ← hy]
    obtain ⟨t', rfl⟩ := hread.exists_behind (by decide)
    rw [List.append_assoc]
    exact Language.tokenLeads_behindBlanks hlang htok hblanks n t'

/-- A token that has been put in front of the keyword closes the modifiers. -/
theorem moveBeforeKeyword_closes {inBlock : Bool} {keywordAt : Keyword.Occurrence}
    (hkeyword : CodeLine.start? lang ⟨n, x, (stripLine inBlock x).1⟩ = some keywordAt)
    (hslash : Byte.slash ∉ x.take keywordAt.start)
    (honce : CodeLine.HoldsOnce lang tok ⟨n, x, (stripLine inBlock x).1⟩)
    (h : moveBeforeKeyword lang tok ⟨n, x, (stripLine inBlock x).1⟩ = some y) :
    y.getLast? = x.getLast? ∧
      CodeLine.TokenCloses lang tok ⟨n, y, (stripLine inBlock y).1⟩ := by
  obtain ⟨lang₀, hlang, hstart, htokens⟩ := Language.exists_customary hbuild
  obtain ⟨m, hm, hstripLine⟩ := Comment.exists_mode inBlock
  rw [← htokens] at htok
  simp only [CodeLine.TokenCloses, CodeLine.HoldsOnce, moveBeforeKeyword, hstripLine,
    CodeLine.searchable_congr hstart, CodeLine.start?_congr hstart] at hkeyword honce h ⊢
  rcases lang₀.start_cases (strip m x).1 with hnone | ⟨front, keyword, tail, hfirst⟩
  · rw [CodeLine.start?, Language.findStart?_eq_none hlang hnone] at hkeyword
    cases hkeyword
  · obtain ⟨keywordAt', hkeyword', hfront⟩ := Language.findStart?_first hlang hfirst
    obtain rfl : keywordAt' = keywordAt := Option.some.inj (hkeyword'.symm.trans hkeyword)
    have hpart := Language.modifierPart_first hlang hfirst
    have hloose : (lang₀.modifierPart (strip m x).1).hasLooseSlash = false := by
      rw [hfront] at hslash
      have htake := Comment.front_eq_take hm hfirst.text_eq hfirst.ne_nil hfirst.isWord hslash
      rw [← htake] at hslash
      rw [hpart]
      exact Text.hasLooseSlash_of_noSlash fun b hb heq => hslash (heq ▸ hb)
    rcases moveBeforeKeyword_cases hlang htok hm hloose h with
      ⟨hnone, -⟩ | ⟨at_, keywordAt, hat, hkeyword'', hskip, rfl⟩ |
        ⟨front', keyword', tail', before, after, t, d, code, hmoved⟩
    · rw [hnone] at hkeyword'
      cases hkeyword'
    · obtain ⟨hle, hblanks⟩ := Text.isBlank_skipped hskip
      exact ⟨rfl, at_, keywordAt, hat, hkeyword'', hle, hblanks⟩
    · have hpart' := Language.modifierPart_first hlang hmoved.start
      have honce' := hmoved.first.notMem_after (hpart' ▸ honce)
      exact ⟨hmoved.last, hmoved.closes hlang htok honce' n⟩

/-- On a line without a keyword the token stays where it is. -/
theorem moveBeforeKeyword_placedBefore {inBlock : Bool}
    (honce : ∀ keywordAt, CodeLine.start? lang ⟨n, x, (stripLine inBlock x).1⟩ = some keywordAt →
      Byte.slash ∉ x.take keywordAt.start ∧
        CodeLine.HoldsOnce lang tok ⟨n, x, (stripLine inBlock x).1⟩)
    (h : moveBeforeKeyword lang tok ⟨n, x, (stripLine inBlock x).1⟩ = some y) {z : Text}
    (hz : x.ReadAs y z) :
    PlacedBefore lang tok ⟨n, x, (stripLine inBlock x).1⟩ ⟨n, z, (stripLine inBlock z).1⟩ := by
  cases hstart : CodeLine.start? lang ⟨n, x, (stripLine inBlock x).1⟩ with
  | none =>
    obtain ⟨at_, hat, -⟩ := Option.map_eq_some_iff.1 h
    have hkept := moveBeforeKeyword_of_noStart hstart (Option.isSome_of_eq_some hat)
    obtain rfl : y = x := Option.some.inj (h.symm.trans hkept)
    obtain rfl := hz.eq_of_getLast? rfl
    exact Or.inr ⟨hstart, h⟩
  | some keywordAt =>
    obtain ⟨hslash, hholds⟩ := honce keywordAt hstart
    obtain ⟨hlast, hcloses⟩ := moveBeforeKeyword_closes hbuild htok hstart hslash hholds h
    obtain rfl := hz.eq_of_getLast? hlast
    exact Or.inl hcloses

end LineEdit

/-! ## The line that holds the token -/

namespace Buffer

/-- The first line of a span that holds a token where modifiers are looked for. -/
def firstHolding? (b : Buffer) (lang : Language) (tok : Token) (span : Span) : Option CodeLine :=
  (b.codeLines span).find? fun l => (tok.find? (l.searchable lang)).isSome

variable {b : Buffer} {lang : Language} {tok : Token} {span : Span} {l : CodeLine}

theorem firstHolding?_eq_some_iff :
    b.firstHolding? lang tok span = some l ↔
      (tok.find? (l.searchable lang)).isSome = true ∧ ∃ above below,
        b.codeLines span = above ++ l :: below ∧
          ∀ l' ∈ above, tok.find? (l'.searchable lang) = none := by
  rw [firstHolding?, List.find?_eq_some_iff_append]
  simp

theorem find?_eq_none_of_firstHolding? (h : b.firstHolding? lang tok span = none) :
    ∀ l ∈ b.codeLines span, tok.find? (l.searchable lang) = none := by
  simpa [firstHolding?] using h

theorem spanLines_above {above below : List CodeLine} (h : b.codeLines span = above ++ l :: below) :
    b.spanLines ⟨span.first, (l.number : Int) - 1⟩ = above.map (·.text) := by
  rw [spanLines_eq_map, codeLines_above (codeLines_upTo h)]

end Buffer

/-- The step is taken twice without an error, and changes nothing the second time. -/
def Step.Settles (f : Step) (w : Work) : Prop :=
  (f w).error = none ∧ (f (f w).work).error = none ∧
    (f (f w).work).work.buffer.text = (f w).work.buffer.text

namespace Step

variable (scope : Option ToggleScope) {span : Span} {r : LineEdit} {otherwise : Step} {w : Work}

theorem skip_settles (w : Work) : skip.Settles w := ⟨rfl, rfl, rfl⟩

/-- Where no line is taken, none is taken the second time. -/
theorem editLine_settles_of_none (ho : otherwise.IsIdle)
    (hnone : ∀ l ∈ w.buffer.codeLines span, r l = none) :
    (editLine scope span r otherwise).Settles w := by
  have hidle : ∀ w' : Work, w'.buffer = w.buffer →
      editLine scope span r otherwise w' = otherwise w' := by
    intro w' hw'
    rw [editLine, hw', LineEdit.first?_eq_none hnone]
  obtain ⟨herror, -, hbuffer⟩ := ho w
  obtain ⟨herror', -, hbuffer'⟩ := ho (otherwise w).work
  rw [Settles, hidle w rfl, hidle _ hbuffer]
  exact ⟨herror, herror', congrArg Buffer.text hbuffer'⟩

/-- A line that is taken is exchanged in the code lines of the span. -/
theorem editLine_taken (hr : r.OneLine) (otherwise : Step) (hw : w.writesLeft = none)
    {above below : List CodeLine} {l : CodeLine}
    (hlines : w.buffer.codeLines span = above ++ l :: below)
    (habove : ∀ l' ∈ above, r l' = none) (hne : l.text ≠ []) {y : Text} (hy : r l = some y) :
    (editLine scope span r otherwise w).error = none ∧ ∃ z below', l.text.ReadAs y z ∧
      (editLine scope span r otherwise w).work.buffer.codeLines span
        = above ++ ⟨l.number, z, (stripLine (openAfter false (above.map (·.text))) z).1⟩
          :: below' := by
  have hmem : l ∈ w.buffer.codeLines span := by simp [hlines]
  have honce : editLine scope span r otherwise w = setLine scope l y w := by
    rw [editLine, hlines, LineEdit.first?_split habove hne hy]
  obtain ⟨herror, -, rest, z, hz, htexts, htexts'⟩ :=
    setLine_spanLines scope hw hlines (hr l y (Buffer.newline_notMem_text hmem) hy)
  rw [honce]
  exact ⟨herror, z, _, hz, Buffer.codeLines_exchanged hlines htexts htexts'⟩

/-- A line that the line edit leaves as it is is taken the second time. -/
theorem editLine_settles_of_kept (herror : (editLine scope span r otherwise w).error = none)
    {above below : List CodeLine} {l : CodeLine}
    (hlines : (editLine scope span r otherwise w).work.buffer.codeLines span = above ++ l :: below)
    (habove : ∀ l' ∈ above, r l' = none) (hne : l.text ≠ []) (hkept : r l = some l.text) :
    (editLine scope span r otherwise).Settles w := by
  have htwice : editLine scope span r otherwise (editLine scope span r otherwise w).work
      = { work := (editLine scope span r otherwise w).work } := by
    rw [editLine, hlines, LineEdit.first?_split habove hne hkept]
    exact if_pos rfl
  rw [Settles, htwice]
  exact ⟨herror, rfl, rfl⟩

end Step

/-! ## Putting a token into its place -/

theorem CodeLine.Aligned.text_ne_nil {lang : Language} {l : CodeLine} (h : l.Aligned lang)
    {tok : Token} (htok : tok ∈ lang.tokens)
    (hfound : (tok.find? (l.searchable lang)).isSome = true) : l.text ≠ [] := by
  obtain ⟨at_, hat⟩ := Option.isSome_iff_exists.1 hfound
  obtain ⟨-, a, y, htext, -, -, hk⟩ := h.token tok htok at_ hat
  rw [htext]
  simp [Text.ne_nil_of_isHeaderWord hk]

theorem Language.token?_placement {name base : Text} {opts : LanguageOptions} {lang : Language}
    (hbuild : build name base opts = .ok lang) {m : Modifier} {tok : Token}
    (htok : lang.token? m = some tok) :
    (m = .final ∨ m = .noCompletion → tok.placement = .lineStart) ∧
      (m = .inlined → tok.placement = .beforeKeyword) := by
  have hplacement : ∀ tok ∈ lang.tokens,
      (tok.modifier = .final ∨ tok.modifier = .noCompletion → tok.placement = .lineStart) ∧
        (tok.modifier = .inlined → tok.placement = .beforeKeyword) := by
    obtain ⟨n, rfl | rfl⟩ := build_cases hbuild
    · show ∀ tok ∈ (haxe {}).tokens, _
      decide
    · show ∀ tok ∈ (actionScript3 {}).tokens, _
      decide
  obtain rfl : tok.modifier = m := by simpa using List.find?_some htok
  exact hplacement tok (List.mem_of_find?_eq_some htok)

namespace Editor

theorem fixPlacement_skip {ed : Editor} {m : Modifier} (htok : ed.lang.token? m = none)
    (span : Span) : ed.fixPlacement m span = Step.skip := by
  rw [fixPlacement, htok]

section

variable {name base : Text} {opts : LanguageOptions} {lang : Language}
  (hbuild : Language.build name base opts = .ok lang) (scope : Option ToggleScope) (span : Span)
  {w : Work} (hw : w.writesLeft = none) {m : Modifier} {tok : Token}
  (htok : lang.token? m = some tok)

include hbuild hw htok

/-- A token stays where it is put if the line that holds it then is one that is left alone. -/
theorem fixPlacement_settles_of_kept {r : LineEdit} (hr : LineEdit.place? lang tok = some r)
    (P : CodeLine → CodeLine → Prop)
    (hplaced : ∀ {above below : List CodeLine} {l : CodeLine} {y z : Text},
      w.buffer.codeLines span = above ++ l :: below →
      w.buffer.firstHolding? lang tok span = some l → r l = some y → l.text.ReadAs y z →
      P l ⟨l.number, z, (stripLine (openAfter false (above.map (·.text))) z).1⟩)
    (hkept : ∀ {l l' : CodeLine}, l'.Aligned lang → P l l' → r l' = some l'.text) :
    let f := fixPlacement ⟨lang, scope⟩ m span
    f.Settles w ∧ ∀ l ∈ w.buffer.firstHolding? lang tok span,
      ∃ l' ∈ (f w).work.buffer.firstHolding? lang tok span, l'.number = l.number ∧ P l l' := by
  have hmem : tok ∈ lang.tokens := List.mem_of_find?_eq_some htok
  have hfix : fixPlacement ⟨lang, scope⟩ m span
      = Step.editLine scope span r (Step.report scope (.nothingToMove tok.keyword)) := by
    rw [fixPlacement, htok]
    simp only [hr]
  have hnone := LineEdit.place?_eq_none_iff hr
  have hline := LineEdit.place?_oneLine lang (Language.newline_notMem_keyword hbuild hmem) hr
  intro f
  simp only [f, hfix]
  cases hfirst : w.buffer.firstHolding? lang tok span with
  | none =>
    refine ⟨Step.editLine_settles_of_none scope (Step.report_isIdle _ _) fun l hl => ?_, ?_⟩
    · exact (hnone l).2 (Buffer.find?_eq_none_of_firstHolding? hfirst l hl)
    · simp
  | some l =>
    obtain ⟨hfound, above, below, hlines, habove⟩ := Buffer.firstHolding?_eq_some_iff.1 hfirst
    have hl : l ∈ w.buffer.codeLines span := by simp [hlines]
    obtain ⟨y, hy⟩ : ∃ y, r l = some y := by
      refine Option.ne_none_iff_exists'.1 fun hleft => ?_
      rw [(hnone l).1 hleft] at hfound
      cases hfound
    have habove' : ∀ l' ∈ above, r l' = none := fun l' hl' => (hnone l').2 (habove l' hl')
    obtain ⟨herror, z, below', hz, hlines'⟩ := Step.editLine_taken scope hline
      (Step.report scope (.nothingToMove tok.keyword)) hw hlines habove'
      ((Buffer.aligned hbuild hl).text_ne_nil hmem hfound) hy
    have hP := hplaced hlines hfirst hy hz
    generalize hl' : (⟨l.number, z, (stripLine (openAfter false (above.map (·.text))) z).1⟩ :
      CodeLine) = l' at hlines' hP
    have haligned : l'.Aligned lang := Buffer.aligned hbuild (by rw [hlines']; simp)
    have hkept' := hkept haligned hP
    have hfound' := LineEdit.find?_isSome_of_place? hr hkept'
    refine ⟨Step.editLine_settles_of_kept scope herror hlines' habove'
      (haligned.text_ne_nil hmem hfound') hkept', fun l₀ hl₀ => ?_⟩
    obtain rfl : l = l₀ := Option.some.inj hl₀
    exact ⟨l', Buffer.firstHolding?_eq_some_iff.2 ⟨hfound', above, below', hlines', habove⟩,
      by rw [← hl'], hP⟩

theorem fixPlacement_leads (hplace : tok.placement = .lineStart)
    (hcode : ∀ l ∈ w.buffer.firstHolding? lang tok span,
      openAfter false (w.buffer.spanLines ⟨span.first, (l.number : Int) - 1⟩) = false) :
    let f := fixPlacement ⟨lang, scope⟩ m span
    f.Settles w ∧ ∀ l ∈ w.buffer.firstHolding? lang tok span,
      ∃ l' ∈ (f w).work.buffer.firstHolding? lang tok span,
        l'.number = l.number ∧ l'.TokenLeads lang tok := by
  have hmem : tok ∈ lang.tokens := List.mem_of_find?_eq_some htok
  have hr : LineEdit.place? lang tok = some (LineEdit.moveToLineStart lang tok) := by
    rw [LineEdit.place?, hplace]
  refine fixPlacement_settles_of_kept hbuild scope span hw htok hr
    (fun _ l' => l'.TokenLeads lang tok) ?_ fun _ => LineEdit.moveToLineStart_of_leads
  intro above below l y z hlines hfirst hy hz
  obtain ⟨-, -, hl⟩ := CodeLine.ofLines_split hlines
  have hopen := hcode l hfirst
  rw [Buffer.spanLines_above hlines] at hopen
  rw [hopen] at hl ⊢
  rw [hl] at hy
  exact LineEdit.moveToLineStart_leads hbuild hmem hy hz

theorem fixPlacement_closes (hplace : tok.placement = .beforeKeyword)
    (honce : ∀ l ∈ w.buffer.firstHolding? lang tok span, ∀ keywordAt,
      l.start? lang = some keywordAt →
        Byte.slash ∉ l.text.take keywordAt.start ∧ l.HoldsOnce lang tok) :
    let f := fixPlacement ⟨lang, scope⟩ m span
    f.Settles w ∧ ∀ l ∈ w.buffer.firstHolding? lang tok span, (l.start? lang).isSome = true →
      ∃ l' ∈ (f w).work.buffer.firstHolding? lang tok span,
        l'.number = l.number ∧ l'.TokenCloses lang tok := by
  have hmem : tok ∈ lang.tokens := List.mem_of_find?_eq_some htok
  have hr : LineEdit.place? lang tok = some (LineEdit.moveBeforeKeyword lang tok) := by
    rw [LineEdit.place?, hplace]
  have hline : ∀ {above below : List CodeLine} {l : CodeLine} {y z : Text},
      w.buffer.codeLines span = above ++ l :: below →
      w.buffer.firstHolding? lang tok span = some l →
      LineEdit.moveBeforeKeyword lang tok l = some y → l.text.ReadAs y z →
      LineEdit.PlacedBefore lang tok l
        ⟨l.number, z, (stripLine (openAfter false (above.map (·.text))) z).1⟩ := by
    intro above below l y z hlines hfirst hy hz
    obtain ⟨-, -, hl⟩ := CodeLine.ofLines_split hlines
    have honce' := honce l hfirst
    rw [hl] at honce' hy ⊢
    exact LineEdit.moveBeforeKeyword_placedBefore hbuild hmem honce' hy hz
  obtain ⟨hsettles, hplaced⟩ := fixPlacement_settles_of_kept hbuild scope span hw htok hr
    (LineEdit.PlacedBefore lang tok) hline LineEdit.PlacedBefore.kept
  refine ⟨hsettles, fun l hl hstart => ?_⟩
  obtain ⟨l', hl', hnumber, hcloses | ⟨hnone, -⟩⟩ := hplaced l hl
  · exact ⟨l', hl', hnumber, hcloses⟩
  · rw [hnone] at hstart
    cases hstart

end

/-- **Putting a token into its place twice is putting it there once.**

    For a token that goes to the start of its line, that is so if no comment is open at the start of
    the line that holds it; afterwards only annotations stand between the indentation and the token.
    For one that goes to the keyword, it is so if the line has no slash before the keyword and holds
    the token once; afterwards only blanks stand between the two. A line without a keyword has no
    condition. -/
theorem fixPlacement_settles {name base : Text} {opts : LanguageOptions} {lang : Language}
    (hbuild : Language.build name base opts = .ok lang) (scope : Option ToggleScope) (span : Span)
    {w : Work} (hw : w.writesLeft = none) :
    (∀ m, m = .final ∨ m = .noCompletion →
      (∀ tok ∈ lang.token? m, ∀ l ∈ w.buffer.firstHolding? lang tok span,
        openAfter false (w.buffer.spanLines ⟨span.first, (l.number : Int) - 1⟩) = false) →
      let f := fixPlacement ⟨lang, scope⟩ m span
      f.Settles w ∧ ∀ tok ∈ lang.token? m, ∀ l ∈ w.buffer.firstHolding? lang tok span,
        ∃ l' ∈ (f w).work.buffer.firstHolding? lang tok span,
          l'.number = l.number ∧ l'.TokenLeads lang tok) ∧
    ((∀ tok ∈ lang.token? .inlined, ∀ l ∈ w.buffer.firstHolding? lang tok span,
        ∀ keywordAt ∈ l.start? lang,
          Byte.slash ∉ l.text.take keywordAt.start ∧ l.HoldsOnce lang tok) →
      let f := fixPlacement ⟨lang, scope⟩ .inlined span
      f.Settles w ∧ ∀ tok ∈ lang.token? .inlined, ∀ l ∈ w.buffer.firstHolding? lang tok span,
        (l.start? lang).isSome = true →
        ∃ l' ∈ (f w).work.buffer.firstHolding? lang tok span,
          l'.number = l.number ∧ l'.TokenCloses lang tok) := by
  refine ⟨fun m hm hcode => ?_, fun honce => ?_⟩
  · cases htok : lang.token? m with
    | none =>
      rw [fixPlacement_skip htok span]
      exact ⟨Step.skip_settles w, by simp⟩
    | some tok =>
      obtain ⟨hsettles, hleads⟩ := fixPlacement_leads hbuild scope span hw htok
        ((Language.token?_placement hbuild htok).1 hm) (hcode tok htok)
      refine ⟨hsettles, fun tok' htok' => ?_⟩
      obtain rfl : tok = tok' := Option.some.inj htok'
      exact hleads
  · cases htok : lang.token? .inlined with
    | none =>
      rw [fixPlacement_skip htok span]
      exact ⟨Step.skip_settles w, by simp⟩
    | some tok =>
      obtain ⟨hsettles, hcloses⟩ := fixPlacement_closes hbuild scope span hw htok
        ((Language.token?_placement hbuild htok).2 rfl) (honce tok htok)
      refine ⟨hsettles, fun tok' htok' => ?_⟩
      obtain rfl : tok = tok' := Option.some.inj htok'
      exact hcloses

/-- A method whose modifiers are not in their places, under a comment with a token in it. -/
def scatteredWork : Work :=
  { buffer := .ofText
      (utf8 "/* x\n @:final */ @:a\n\tinline static\t@:final public  function f() \x7b\x7d") }

/-- Each token moves over tabs and over the other one, and stays there. -/
theorem fixPlacement_settles_scattered :
    Step.Settles (fixPlacement ⟨.haxe {}, none⟩ .final ⟨0, 2⟩) scatteredWork ∧
    (fixPlacement ⟨.haxe {}, none⟩ .final ⟨0, 2⟩ scatteredWork).work.buffer.text
      = utf8 "/* x\n @:final */ @:a\n\t@:final inline static\tpublic  function f() \x7b\x7d" ∧
    Step.Settles (fixPlacement ⟨.haxe {}, none⟩ .inlined ⟨0, 2⟩) scatteredWork ∧
    (fixPlacement ⟨.haxe {}, none⟩ .inlined ⟨0, 2⟩ scatteredWork).work.buffer.text
      = utf8 "/* x\n @:final */ @:a\n\tstatic\t@:final public  inline function f() \x7b\x7d" ∧
    ∃ tok ∈ (Language.haxe {}).token? .inlined,
      ∃ l ∈ (fixPlacement ⟨.haxe {}, none⟩ .inlined ⟨0, 2⟩ scatteredWork).work.buffer.firstHolding?
          (.haxe {}) tok ⟨0, 2⟩,
        l.number = 2 ∧ l.TokenCloses (.haxe {}) tok := by
  have hbuild : Language.build [] (utf8 "haxe") {} = .ok (.haxe {}) := rfl
  have hcode : ∀ tok ∈ (Language.haxe {}).token? .final,
      ∀ l ∈ scatteredWork.buffer.firstHolding? (.haxe {}) tok ⟨0, 2⟩,
        openAfter false (scatteredWork.buffer.spanLines ⟨0, (l.number : Int) - 1⟩) = false := by
    decide
  have hcount : ∀ tok ∈ (Language.haxe {}).token? .inlined,
      ∀ l ∈ scatteredWork.buffer.firstHolding? (.haxe {}) tok ⟨0, 2⟩,
        ∀ keywordAt ∈ l.start? (.haxe {}), Byte.slash ∉ l.text.take keywordAt.start ∧
          (l.searchable (.haxe {})).standing.count tok.keyword ≤ 1 := by
    decide
  have hholds : ((Language.haxe {}).token? .inlined).any (fun tok =>
      (scatteredWork.buffer.firstHolding? (.haxe {}) tok ⟨0, 2⟩).any fun l =>
        l.number == 2 && (l.start? (.haxe {})).isSome) = true := by
    decide
  obtain ⟨tok, htok, hany⟩ := (Option.any_eq_true _ _).1 hholds
  obtain ⟨l, hl, hline⟩ := (Option.any_eq_true _ _).1 hany
  rw [Bool.and_eq_true, beq_iff_eq] at hline
  obtain ⟨hnumber, hstart⟩ := hline
  obtain ⟨hleads, hcloses⟩ := fixPlacement_settles hbuild none ⟨0, 2⟩ (w := scatteredWork) rfl
  obtain ⟨hfinal, -⟩ := hleads .final (Or.inl rfl) hcode
  obtain ⟨hinlined, hplaced⟩ := hcloses fun tok htok l hl keywordAt hkeyword => by
    obtain ⟨hslash, hcount⟩ := hcount tok htok l hl keywordAt hkeyword
    exact ⟨hslash, CodeLine.holdsOnce_of_count hbuild (List.mem_of_find?_eq_some htok) hcount⟩
  obtain ⟨l', hl', hnumber', hcloses'⟩ := hplaced tok htok l hl hstart
  rw [hnumber] at hnumber'
  exact ⟨hfinal, by decide, hinlined, by decide, tok, htok, l', hl', hnumber', hcloses'⟩

end Editor

end ModifierToggle
