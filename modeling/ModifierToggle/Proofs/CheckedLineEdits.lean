import ModifierToggle.Proofs.CheckedReading
import ModifierToggle.Proofs.LineViews
import ModifierToggle.Proofs.PlainRuns
import ModifierToggle.Proofs.TokenEdits

set_option autoImplicit false

/-! # Line edits with checked bounds

Line edits once more, with slices that fail at an offset outside the text they are taken of. Offsets
come from the code of a line and are used on its text, on a part of it, or on the line that is left
when a token has been cut out. That they fit there is what `CodeLine.Aligned` says of a line, and
every line of a buffer is aligned (`Buffer.aligned`). So no slice fails. -/

namespace ModifierToggle

/-! ## Offsets in code and text -/

/-- What is found in the code of a line has its place in the text of the line. -/
structure CodeLine.Aligned (lang : Language) (l : CodeLine) : Prop where
  length_le : l.code.length ≤ l.text.length
  start : ∀ at_, l.start? lang = some at_ → at_.start ≤ l.code.length ∧
    ∃ a k y, l.text = a ++ (k ++ y) ∧ a.length = at_.start ∧ k.isHeaderWord = true
  token : ∀ tok ∈ lang.tokens, ∀ at_, tok.find? (l.searchable lang) = some at_ →
    at_.stop ≤ (l.searchable lang).length ∧
    ∃ a y, l.text = a ++ (tok.keyword ++ y) ∧ a.length = at_.start ∧
      at_.stop = at_.start + tok.keyword.length ∧ tok.keyword.isHeaderWord = true
  visibility : ∀ at_, lang.findVisibility? (l.searchable lang) = some at_ →
    at_.start ≤ at_.stop ∧ at_.stop ≤ (l.searchable lang).length

namespace CodeLine.Aligned

variable {lang : Language} {l : CodeLine} {at_ : Keyword.Occurrence} (h : l.Aligned lang)

include h

theorem searchable_le : (l.searchable lang).length ≤ l.text.length := by
  obtain ⟨rest, hcode⟩ := l.searchable_append lang
  have hlength := h.length_le
  rw [hcode, List.length_append] at hlength
  omega

theorem start_le (hat : l.start? lang = some at_) : at_.start ≤ l.text.length := by
  obtain ⟨-, a, k, y, htext, ha, -⟩ := h.start at_ hat
  rw [htext, List.length_append]
  omega

/-- A token is no blank, so it does not stand in the indentation. -/
theorem indent_le {tok : Token} (htok : tok ∈ lang.tokens)
    (hat : tok.find? (l.searchable lang) = some at_) : l.text.indent ≤ at_.start := by
  obtain ⟨-, a, y, htext, ha, -, hk⟩ := h.token tok htok at_ hat
  have hhead : ∀ b ∈ (tok.keyword ++ y).head?, Byte.isBlank b = false := by
    intro b hb
    obtain ⟨c, k, hck⟩ := List.exists_cons_of_ne_nil (Text.ne_nil_of_isHeaderWord hk)
    rw [hck, List.cons_append, List.head?_cons, Option.mem_some_iff] at hb
    refine Byte.isBlank_of_isWord (Text.isWord_of_isHeaderWord hk b ?_)
    rw [hck, hb]
    exact List.mem_cons_self
  rw [htext, Text.indent_append hhead, ← ha]
  exact (List.takeWhile_prefix _).length_le

/-- A token with more than annotations before it does not stand right behind the indentation. -/
theorem indent_lt {tok : Token} (htok : tok ∈ lang.tokens)
    (hat : tok.find? (l.searchable lang) = some at_)
    (hwords : ¬ (l.text.slice l.text.indent at_.start).words.all LineEdit.annotates = true) :
    l.text.indent < at_.start := by
  refine Nat.lt_of_le_of_ne (h.indent_le htok hat) fun heq => hwords ?_
  rw [heq]
  exact LineEdit.all_annotates_slice_self l.text at_.start

end CodeLine.Aligned

/-- What is searched of a line with a keyword ends before the keyword. -/
theorem CodeLine.searchable_le_start {lang : Language} {l : CodeLine} {at_ : Keyword.Occurrence}
    (hat : l.start? lang = some at_) : (l.searchable lang).length ≤ at_.start := by
  rw [searchable, hat]
  exact List.length_take_le _ _

/-- **The lines of a buffer are aligned.** -/
theorem Buffer.aligned {name base : Text} {opts : LanguageOptions} {lang : Language}
    (hbuild : Language.build name base opts = .ok lang) {b : Buffer} {span : Span} {l : CodeLine}
    (hl : l ∈ b.codeLines span) : l.Aligned lang := by
  have hsound := (Language.build_soundKeywords hbuild).1
  refine ⟨length_code_le hl, fun at_ hat => ?_, fun tok htok at_ hat => ?_, fun at_ hat => ?_⟩
  · obtain ⟨u, k, v, hcode, hk, hu⟩ := hsound.findStart?_sound hat
    obtain ⟨a, y, htext, ha⟩ := exists_text_of_code hl hcode (Text.ne_nil_of_isHeaderWord hk)
      fun c hc hspace => absurd (Text.isWord_of_isHeaderWord hk c hc) (by rw [hspace]; decide)
    refine ⟨?_, a, k, y, htext, ha.trans hu, hk⟩
    rw [hcode, List.length_append]
    omega
  · obtain ⟨hwords, hword⟩ := hsound.2.1 tok htok
    have hplain : tok.pattern.Plain := Keyword.Pattern.plain_of_isHeaderWord fun w hw => by
      rw [hwords, List.mem_singleton] at hw
      exact hw ▸ hword.1
    rw [Token.find?, hplain.find?_eq] at hat
    obtain ⟨u, w, v, hsearchable, hw, hstart, hstop⟩ := Keyword.Pattern.scan_sound hat
    obtain rfl : w = tok.keyword := by simpa [hwords] using hw
    obtain ⟨rest, hcode⟩ := l.searchable_append lang
    rw [hsearchable, List.append_assoc, List.append_assoc] at hcode
    obtain ⟨a, y, htext, ha⟩ := exists_text_of_code hl hcode (Text.ne_nil_of_isHeaderWord hword.1)
      fun c hc hspace => absurd (Text.isWord_of_isHeaderWord hword.1 c hc) (by rw [hspace]; decide)
    refine ⟨?_, a, y, htext, by omega, hstop, hword.1⟩
    rw [hsearchable, List.length_append, List.length_append]
    omega
  · have hnominal : lang.visibility.nominal = false := by
      obtain ⟨n, rfl | rfl⟩ := Language.build_cases hbuild <;> rfl
    exact Keyword.Pattern.find?_bounds (Or.inl hnominal) hat

namespace Checked

open Keyword

/-! ## Cutting and inserting -/

/-- The text without the bytes from `start` to `stop`. -/
def without (text : Text) (start stop : Int) : Except BoundsError Text := do
  let before ← upTo text start
  let after ← onward text stop
  pure (before ++ after)

/-- Put a keyword and a space at an offset. -/
def insertAt (text keyword : Text) (i : Int) : Except BoundsError Text := do
  let before ← upTo text i
  let after ← onward text i
  pure (before ++ keyword ++ [Byte.space] ++ after)

/-- Whether the byte at an offset is a space or a tab. -/
def blankAt (text : Text) (i : Int) : Except BoundsError Bool := do
  let b ← get text i
  pure (Byte.isBlank b)

/-- Whether a blank stands at an offset, if there is anything. -/
def blankAfter (text : Text) (stop : Int) : Except BoundsError Bool :=
  if stop < text.length then blankAt text stop else pure false

/-- Whether a blank stands before an offset, if there is anything. -/
def blankBefore (text : Text) (start : Int) : Except BoundsError Bool :=
  if 0 < start then blankAt text (start - 1) else pure false

/-- Remove the bytes from `start` to `stop` with one blank beside them, the one after if there is
    one. -/
def cut (text : Text) (start stop : Int) : Except BoundsError Text := do
  if ← blankAfter text stop then without text start (stop + 1)
  else if ← blankBefore text start then without text (start - 1) stop
  else without text start stop

/-- The offset of the first blank-free position at or after offset `i`. -/
def skipBlanks (text : Text) (i : Int) : Except BoundsError Int := do
  let rest ← onward text i
  pure (i + Text.indent rest)

section

variable {text : Text}

theorem without_eq {start stop : Nat} (hstart : start ≤ text.length) (hstop : stop ≤ text.length) :
    without text start stop = .ok (text.take start ++ text.drop stop) := by
  rw [without, upTo_eq hstart, ok_bind, onward_eq hstop, ok_bind]
  rfl

theorem insertAt_eq {i : Nat} (hi : i ≤ text.length) (keyword : Text) :
    insertAt text keyword i = .ok (LineEdit.insertAt text keyword i) := by
  rw [insertAt, upTo_eq hi, ok_bind, onward_eq hi, ok_bind]
  rfl

theorem blankAt_eq {i : Nat} (hi : i < text.length) :
    blankAt text i = .ok (LineEdit.blankAt text i) := by
  have hbyte : text[i]? = some text[i] := List.getElem?_eq_getElem hi
  rw [blankAt, get_eq hbyte, ok_bind, LineEdit.blankAt, hbyte]
  rfl

theorem blankAfter_eq (text : Text) (stop : Nat) :
    blankAfter text stop = .ok (LineEdit.blankAt text stop) := by
  unfold blankAfter
  by_cases hlt : stop < text.length
  · rw [if_pos (by omega), blankAt_eq hlt]
  · rw [if_neg (by omega), LineEdit.blankAt, List.getElem?_eq_none (by omega)]
    rfl

theorem blankBefore_eq {start : Nat} (hstart : start ≤ text.length) :
    blankBefore text start = .ok (decide (0 < start) && LineEdit.blankAt text (start - 1)) := by
  unfold blankBefore
  cases start with
  | zero => rfl
  | succ start =>
    rw [if_pos (by omega), show ((start + 1 : Nat) : Int) - 1 = start by omega,
      blankAt_eq (by omega)]
    simp

theorem cut_eq {start stop : Nat} (hstart : start ≤ stop) (hstop : stop ≤ text.length) :
    cut text start stop = .ok (LineEdit.cut text start stop) := by
  rw [cut, blankAfter_eq, ok_bind, blankBefore_eq (by omega), ok_bind, LineEdit.cut]
  split
  · next hblank =>
    have hlt : stop < text.length := by
      by_contra hge
      rw [LineEdit.blankAt, List.getElem?_eq_none (by omega)] at hblank
      cases hblank
    exact without_eq (by omega) (by omega : stop + 1 ≤ text.length)
  · split
    · next hblank =>
      have hpos : 0 < start := of_decide_eq_true (Bool.and_eq_true_iff.1 hblank).1
      rw [show (start : Int) - 1 = (start - 1 : Nat) by omega, without_eq (by omega) (by omega)]
    · exact without_eq (by omega) hstop

theorem skipBlanks_eq {i : Nat} (hi : i ≤ text.length) :
    skipBlanks text i = .ok (text.skipBlanks i : Int) := by
  rw [skipBlanks, onward_eq hi, ok_bind]
  rfl

theorem skipBlanks_le {i : Nat} (hi : i ≤ text.length) : text.skipBlanks i ≤ text.length := by
  have hindent : Text.indent (text.drop i) ≤ (text.drop i).length :=
    List.IsPrefix.length_le (List.takeWhile_prefix _)
  rw [List.length_drop] at hindent
  unfold Text.skipBlanks
  omega

end

/-! ## Line edits -/

/-- The new text of a line, or `none` to leave the line alone. -/
abbrev LineEdit := CodeLine → Except BoundsError (Option Text)

/-- The keyword on a line that opens a declaration. -/
def start? (lang : Language) (l : CodeLine) : Except BoundsError (Option Occurrence) :=
  match lang.declarationStart with
  | none => pure none
  | some p => find? p l.code

/-- The part of a line where a modifier can stand. -/
def searchable (lang : Language) (l : CodeLine) : Except BoundsError Text := do
  match ← start? lang l with
  | some at_ => upTo l.code at_.start
  | none => pure l.code

/-- Change a line at the keyword that opens a declaration. -/
def atStart (lang : Language) (change : CodeLine → Occurrence → Except BoundsError Text) :
    LineEdit := fun l => do
  match ← start? lang l with
  | some at_ => some <$> change l at_
  | none => pure none

/-- Change a line at the first occurrence of a pattern among its modifiers. -/
def atModifier (lang : Language) (p : Pattern)
    (change : CodeLine → Occurrence → Except BoundsError Text) : LineEdit := fun l => do
  match ← find? p (← searchable lang l) with
  | some at_ => some <$> change l at_
  | none => pure none

/-- Put `keyword` in the place of the visibility keyword on the line, or drop that when `keyword` is
    empty. -/
def replaceVisibility (lang : Language) (keyword : Text) : LineEdit :=
  atModifier lang lang.visibility fun l at_ => do
    let before ← upTo l.text at_.start
    let rest ← onward l.text (← skipBlanks l.text at_.stop)
    pure (if keyword.isEmpty then before ++ rest else before ++ keyword ++ [Byte.space] ++ rest)

/-- Put a visibility keyword in front of the modifiers on the header line. -/
def insertVisibility (lang : Language) (keyword : Text) : LineEdit :=
  atStart lang fun l _ => insertAt l.text keyword (LineEdit.firstModifierByte l.text)

/-- Put a token directly before the keyword that opens the declaration. -/
def addToken (lang : Language) (tok : Token) : LineEdit :=
  atStart lang fun l at_ => insertAt l.text tok.keyword at_.start

/-- Remove the first occurrence of a token and one blank beside it. -/
def removeToken (lang : Language) (tok : Token) : LineEdit :=
  atModifier lang tok.pattern fun l at_ => cut l.text at_.start at_.stop

/-- Where the run of plain words that ends at offset `pos` starts. -/
def plainRunStart (text : Text) (pos : Int) : Except BoundsError Int := do
  let before ← upTo text pos
  pure (pos - LineEdit.plainRunLength 0 0 false before.reverse)

/-- Whether there are only plain words and annotations between two offsets in that order. -/
def isModifierRun (text : Text) (start pos : Int) : Except BoundsError Bool :=
  if start ≤ pos then LineEdit.isModifierRun <$> slice text start pos else pure false

/-- Where the modifiers before a declaration keyword at offset `pos` start. -/
def modifierRunStart (text : Text) (pos : Int) : Except BoundsError Int := do
  if ← isModifierRun text text.indent pos then pure text.indent else plainRunStart text pos

/-- The words of a modifier run with the first visibility moved to the front, behind leading
    annotations; `none` when there is no visibility or it is not behind them. -/
def visibilityFirst? (lang : Language) (words : List Text) :
    Except BoundsError (Option (List Text)) :=
  let lead := (words.takeWhile LineEdit.annotates).length
  match words.findIdx? lang.isVisibility with
  | none => pure none
  | some i =>
    if i ≤ lead then pure none
    else do
      let front ← upTo words lead
      let visibility ← get words i
      let mid ← slice words lead i
      let back ← onward words (i + 1)
      pure (some (front ++ [visibility] ++ mid ++ back))

/-- Move the visibility keyword in front of the other modifiers on the header line. -/
def orderModifiers (lang : Language) : LineEdit :=
  atStart lang fun l at_ => do
    let first ← modifierRunStart l.text at_.start
    let run ← slice l.text first at_.start
    match ← visibilityFirst? lang (Text.words run) with
    | none => pure l.text
    | some ordered => do
      let before ← upTo l.text first
      let blanks ← onward run (Text.trimEndWhile Byte.isBlank run).length
      let after ← onward l.text at_.start
      pure (before ++ Text.join [Byte.space] ordered ++ blanks ++ after)

/-- Whether there are only annotations between two offsets in that order. -/
def onlyAnnotations (text : Text) (start pos : Int) : Except BoundsError Bool :=
  if start ≤ pos then
    (fun front => (Text.words front).all LineEdit.annotates) <$> slice text start pos
  else pure false

/-- Move a token to the start of its line, unless only annotations stand before it. -/
def moveToLineStart (lang : Language) (tok : Token) : LineEdit :=
  atModifier lang tok.pattern fun l at_ => do
    if ← onlyAnnotations l.text l.text.indent at_.start then pure l.text
    else
      let rest ← cut l.text at_.start at_.stop
      insertAt rest tok.keyword l.text.indent

/-- Move a token directly before the keyword on its line that opens the declaration. -/
def moveBeforeKeyword (lang : Language) (tok : Token) : LineEdit :=
  atModifier lang tok.pattern fun l at_ => do
    match ← start? lang l with
    | none => pure l.text
    | some keyword => do
      if (← skipBlanks l.text at_.stop) = keyword.start then pure l.text
      else
        let rest ← cut l.text at_.start at_.stop
        insertAt rest tok.keyword (keyword.start - (l.text.length - rest.length))

/-- The edit that puts a token into its place; `none` for a token that may stand anywhere. -/
def place? (lang : Language) (tok : Token) : Option LineEdit :=
  match tok.placement with
  | .free => none
  | .lineStart => some (moveToLineStart lang tok)
  | .beforeKeyword => some (moveBeforeKeyword lang tok)

section

variable {lang : Language} {l : CodeLine}

theorem start?_eq (lang : Language) (l : CodeLine) : start? lang l = .ok (l.start? lang) := by
  unfold start? CodeLine.start? Language.findStart?
  cases lang.declarationStart with
  | none => rfl
  | some p => exact find?_eq p l.code

theorem searchable_eq (h : l.Aligned lang) : searchable lang l = .ok (l.searchable lang) := by
  rw [searchable, start?_eq, ok_bind, CodeLine.searchable]
  cases hat : l.start? lang with
  | none => rfl
  | some at_ => exact upTo_eq (h.start at_ hat).1

theorem atStart_eq {change : CodeLine → Occurrence → Except BoundsError Text}
    {change' : Occurrence → Text}
    (hchange : ∀ at_, l.start? lang = some at_ → change l at_ = .ok (change' at_)) :
    atStart lang change l = .ok ((l.start? lang).map change') := by
  rw [atStart, start?_eq, ok_bind]
  cases hat : l.start? lang with
  | none => rfl
  | some at_ =>
    simp only [hchange at_ hat]
    rfl

theorem atModifier_eq (h : l.Aligned lang) {p : Pattern}
    {change : CodeLine → Occurrence → Except BoundsError Text} {change' : Occurrence → Text}
    (hchange : ∀ at_, p.find? (l.searchable lang) = some at_ → change l at_ = .ok (change' at_)) :
    atModifier lang p change l = .ok ((p.find? (l.searchable lang)).map change') := by
  rw [atModifier, searchable_eq h, ok_bind, find?_eq, ok_bind]
  cases hat : p.find? (l.searchable lang) with
  | none => rfl
  | some at_ =>
    simp only [hchange at_ hat]
    rfl

theorem replaceVisibility_eq (h : l.Aligned lang) (keyword : Text) :
    replaceVisibility lang keyword l = .ok (LineEdit.replaceVisibility lang keyword l) := by
  refine atModifier_eq h fun at_ hat => ?_
  obtain ⟨hle, hstop⟩ := h.visibility at_ hat
  have htext := h.searchable_le
  rw [upTo_eq (by omega), ok_bind, skipBlanks_eq (by omega), ok_bind,
    onward_eq (skipBlanks_le (by omega)), ok_bind]
  rfl

theorem insertVisibility_eq (keyword : Text) :
    insertVisibility lang keyword l = .ok (LineEdit.insertVisibility lang keyword l) := by
  refine atStart_eq fun at_ _ => insertAt_eq ?_ keyword
  unfold LineEdit.firstModifierByte
  cases hfirst : l.text.findIdx? Byte.startsModifier with
  | none => exact Nat.zero_le _
  | some i => exact Nat.le_of_lt (List.findIdx?_eq_some_iff_findIdx_eq.1 hfirst).1

theorem addToken_eq (h : l.Aligned lang) (tok : Token) :
    addToken lang tok l = .ok (LineEdit.addToken lang tok l) :=
  atStart_eq fun _ hat => insertAt_eq (h.start_le hat) tok.keyword

theorem removeToken_eq (h : l.Aligned lang) {tok : Token} (htok : tok ∈ lang.tokens) :
    removeToken lang tok l = .ok (LineEdit.removeToken lang tok l) := by
  refine atModifier_eq h fun at_ hat => ?_
  obtain ⟨hstop, a, y, -, -, hlength, -⟩ := h.token tok htok at_ hat
  have htext := h.searchable_le
  exact cut_eq (by omega) (by omega)

/-! ### The order of modifiers -/

theorem plainRunStart_eq {text : Text} {pos : Nat} (hpos : pos ≤ text.length) :
    plainRunStart text pos = .ok (LineEdit.plainRunStart text pos : Int) := by
  have hle := LineEdit.plainRunLength_le hpos
  rw [plainRunStart, upTo_eq hpos, ok_bind, LineEdit.plainRunStart, Int.ofNat_sub hle]
  rfl

theorem modifierRunStart_eq {text : Text} {pos : Nat} (hpos : pos ≤ text.length) :
    modifierRunStart text pos = .ok (LineEdit.modifierRunStart text pos : Int) := by
  have hrun : isModifierRun text text.indent pos
      = .ok (decide (text.indent ≤ pos)
          && LineEdit.isModifierRun (text.slice text.indent pos)) := by
    unfold isModifierRun
    by_cases hle : text.indent ≤ pos
    · rw [if_pos (by omega), slice_eq hle hpos, decide_eq_true hle, Bool.true_and]
      rfl
    · rw [if_neg (by omega), decide_eq_false hle, Bool.false_and]
      rfl
  rw [modifierRunStart, hrun, ok_bind, LineEdit.modifierRunStart]
  split
  · rfl
  · exact plainRunStart_eq hpos

theorem modifierRunStart_le (text : Text) (pos : Nat) :
    LineEdit.modifierRunStart text pos ≤ pos := by
  unfold LineEdit.modifierRunStart
  split
  · next hrun => exact of_decide_eq_true (Bool.and_eq_true_iff.1 hrun).1
  · exact Nat.sub_le _ _

theorem visibilityFirst?_eq (lang : Language) (words : List Text) :
    visibilityFirst? lang words = .ok (LineEdit.visibilityFirst? lang words) := by
  unfold visibilityFirst? LineEdit.visibilityFirst?
  have hlead : (words.takeWhile LineEdit.annotates).length ≤ words.length :=
    List.IsPrefix.length_le (List.takeWhile_prefix _)
  cases hfirst : words.findIdx? lang.isVisibility with
  | none => rfl
  | some i =>
    have hi : i < words.length := (List.findIdx?_eq_some_iff_findIdx_eq.1 hfirst).1
    have hword : words[i]? = some words[i] := List.getElem?_eq_getElem hi
    simp only
    split
    · rfl
    · have honward : onward words ((i : Int) + 1) = .ok (words.drop (i + 1)) := onward_eq hi
      rw [upTo_eq hlead, ok_bind, get_eq hword, ok_bind, slice_eq (by omega) (by omega), ok_bind,
        honward, ok_bind, hword, List.drop_take]
      rfl

theorem orderModifiers_eq (h : l.Aligned lang) :
    orderModifiers lang l = .ok (LineEdit.orderModifiers lang l) := by
  refine atStart_eq fun at_ hat => ?_
  have hstart := h.start_le hat
  have hfirst := modifierRunStart_le l.text at_.start
  rw [modifierRunStart_eq hstart, ok_bind, slice_eq hfirst hstart, ok_bind, visibilityFirst?_eq,
    ok_bind]
  simp only [Text.slice]
  generalize (l.text.take at_.start).drop (LineEdit.modifierRunStart l.text at_.start) = run
  have hblanks : (Text.trimEndWhile Byte.isBlank run).length ≤ run.length := by
    have hle := (List.dropWhile_suffix Byte.isBlank (l := run.reverse)).length_le
    rw [List.length_reverse] at hle
    rwa [Text.trimEndWhile, List.length_reverse]
  cases LineEdit.visibilityFirst? lang (Text.words run) with
  | none => rfl
  | some ordered =>
    simp only
    rw [upTo_eq (by omega), ok_bind, onward_eq hblanks, ok_bind, onward_eq hstart, ok_bind]
    rfl

/-! ### The placement of tokens -/

theorem onlyAnnotations_eq {text : Text} {start pos : Nat} (hpos : pos ≤ text.length) :
    onlyAnnotations text start pos
      = .ok (decide (start ≤ pos)
          && (Text.words (text.slice start pos)).all LineEdit.annotates) := by
  unfold onlyAnnotations
  by_cases hle : start ≤ pos
  · rw [if_pos (by omega), slice_eq hle hpos, decide_eq_true hle, Bool.true_and]
    rfl
  · rw [if_neg (by omega), decide_eq_false hle, Bool.false_and]
    rfl

/-- What is left when a token is cut out. -/
theorem cut_le {text a k y : Text} {start stop : Nat} (htext : text = a ++ (k ++ y))
    (hstart : a.length = start) (hstop : stop = start + k.length) :
    start ≤ (LineEdit.cut text start stop).length + 1 := by
  have hrejoined := LineEdit.cut_rejoined a k y
  rw [← htext, hstart, ← hstop] at hrejoined
  generalize LineEdit.cut text start stop = rest at hrejoined ⊢
  cases hrejoined with
  | exact | blankAfter =>
    rw [List.length_append]
    omega
  | blankBefore _ ha =>
    rw [ha, List.length_append, List.length_singleton] at hstart
    rw [List.length_append]
    omega

theorem moveToLineStart_eq (h : l.Aligned lang) {tok : Token} (htok : tok ∈ lang.tokens) :
    moveToLineStart lang tok l = .ok (LineEdit.moveToLineStart lang tok l) := by
  refine atModifier_eq h fun at_ hat => ?_
  obtain ⟨hstop, a, y, htext, ha, hlength, -⟩ := h.token tok htok at_ hat
  have hle := h.searchable_le
  have hindent := h.indent_le htok hat
  rw [onlyAnnotations_eq (by omega), ok_bind, decide_eq_true hindent, Bool.true_and]
  split
  · rfl
  · next hwords =>
    have hlt := h.indent_lt htok hat hwords
    rw [cut_eq (by omega) (by omega), ok_bind]
    refine insertAt_eq ?_ _
    have hrest := cut_le htext ha hlength
    omega

/-- What is cut out lies before the keyword that opens the declaration. -/
theorem cut_shift (h : l.Aligned lang) {tok : Token} {at_ keyword : Occurrence}
    (hat : tok.find? (l.searchable lang) = some at_) (hkeyword : l.start? lang = some keyword)
    (htok : tok ∈ lang.tokens) :
    (LineEdit.cut l.text at_.start at_.stop).length ≤ l.text.length ∧
      l.text.length - (LineEdit.cut l.text at_.start at_.stop).length ≤ keyword.start := by
  obtain ⟨hstop, a, y, htext, ha, hlength, -⟩ := h.token tok htok at_ hat
  obtain ⟨-, a', k, y', htext', ha', hk⟩ := h.start keyword hkeyword
  have hsearchable := CodeLine.searchable_le_start hkeyword
  have hsum := congrArg List.length htext
  simp only [List.length_append] at hsum
  have hrejoined := LineEdit.cut_rejoined a tok.keyword y
  rw [← htext, ha, ← hlength] at hrejoined
  generalize LineEdit.cut l.text at_.start at_.stop = rest at hrejoined
  cases hrejoined with
  | exact =>
    simp only [List.length_append]
    omega
  | blankBefore _ hblank =>
    rw [hblank, List.length_append, List.length_singleton] at ha hsum
    simp only [List.length_append]
    omega
  | @blankAfter c rest hc hblank =>
    -- the keyword does not begin with a blank, so it does not follow directly
    have hne : at_.stop ≠ keyword.start := by
      intro heq
      have hbyte : l.text[at_.stop]? = some c := by
        rw [htext, hblank, ← List.append_assoc, List.getElem?_append_right (by simp; omega)]
        simp [hlength, ha]
      obtain ⟨d, k', rfl⟩ := List.exists_cons_of_ne_nil (Text.ne_nil_of_isHeaderWord hk)
      have hbyte' : l.text[at_.stop]? = some d := by
        rw [htext', heq, ← ha', List.getElem?_append_right (Nat.le_refl _)]
        simp
      obtain rfl : c = d := Option.some.inj (hbyte.symm.trans hbyte')
      rw [Byte.isBlank_of_isWord (Text.isWord_of_isHeaderWord hk c List.mem_cons_self)] at hc
      cases hc
    rw [hblank, List.length_cons] at hsum
    simp only [List.length_append]
    omega

theorem moveBeforeKeyword_eq (h : l.Aligned lang) {tok : Token} (htok : tok ∈ lang.tokens) :
    moveBeforeKeyword lang tok l = .ok (LineEdit.moveBeforeKeyword lang tok l) := by
  refine atModifier_eq h fun at_ hat => ?_
  obtain ⟨hstop, a, y, htext, ha, hlength, hk⟩ := h.token tok htok at_ hat
  have hle := h.searchable_le
  rw [start?_eq, ok_bind]
  cases hkeyword : l.start? lang with
  | none => rfl
  | some keyword =>
    have hsearchable := CodeLine.searchable_le_start hkeyword
    have hkeyword_le := h.start_le hkeyword
    simp only
    rw [skipBlanks_eq (by omega), ok_bind]
    by_cases hdirect : l.text.skipBlanks at_.stop = keyword.start
    · rw [if_pos (by omega), if_pos hdirect]
      rfl
    · rw [if_neg (by omega), if_neg hdirect, cut_eq (by omega) (by omega), ok_bind]
      have hshift := cut_shift h hat hkeyword htok
      generalize LineEdit.cut l.text at_.start at_.stop = rest at hshift ⊢
      rw [show (keyword.start : Int) - (l.text.length - rest.length)
        = (keyword.start - (l.text.length - rest.length) : Nat) by omega]
      exact insertAt_eq (by omega) _

end

end Checked

end ModifierToggle
