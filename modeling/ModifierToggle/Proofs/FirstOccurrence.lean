import ModifierToggle.Proofs.Occurrences
import ModifierToggle.Proofs.StandingWords
import ModifierToggle.Proofs.Tables

set_option autoImplicit false

/-! # The first place where a word stands alone

Where a word stands alone is a matter of the bytes at the place, before it and behind it
(`StandsAt`). The searches for tokens, for visibilities and for the keyword that opens a declaration
go through the text once, jump over occurrences that do not stand alone and take the first word of
their list that fits. They nevertheless find the least place where one of their words stands alone,
whatever the text (`search_findsFirst`).

For words made of word bytes that is so because two words that stand alone cannot overlap
(`mem_standing_of_standsAt`); for a single keyword with other bytes in it, because white space
closes it (`Pattern.find?_isFirst`). -/

namespace ModifierToggle.Keyword

open Text (EndsOutsideWord ClosesWord FirstStanding)

/-- The word stands alone at an offset: its bytes are there, the byte before them, if there is one,
    is no word byte, and behind them is white space or, where `atEnd` holds, the end of the text. -/
def StandsAt (atEnd : Bool) (w t : Text) (i : Nat) : Prop :=
  t.slice i (i + w.length) = w ∧
    (i = 0 ∨ ∃ b, t[i - 1]? = some b ∧ Byte.isWord b = false) ∧
    ((∃ b, t[i + w.length]? = some b ∧ Byte.isSeparator b = true) ∨
      atEnd = true ∧ i + w.length = t.length)

/-- What a search for some words has found is the least place where one of them stands alone. -/
def FoundFirst (words : List Text) (atEnd : Bool) (t : Text) : Option Occurrence → Prop
  | none => ∀ w ∈ words, ∀ i, ¬ StandsAt atEnd w t i
  | some at_ =>
    (∃ w ∈ words, StandsAt atEnd w t at_.start ∧ at_.stop = at_.start + w.length) ∧
      ∀ w ∈ words, ∀ i < at_.start, ¬ StandsAt atEnd w t i

variable {atEnd : Bool} {w t : Text}

/-- A place where a word stands alone splits the text. -/
theorem standsAt_iff {i : Nat} (hne : w ≠ []) :
    StandsAt atEnd w t i ↔ ∃ u v, t = u ++ (w ++ v) ∧ u.length = i ∧ EndsOutsideWord u ∧
      ClosesWord v ∧ (v = [] → atEnd = true) := by
  constructor
  · rintro ⟨hslice, hbefore, hafter⟩
    have hpos := List.length_pos_iff.2 hne
    have hlength : i + w.length ≤ t.length := by
      have hcount := congrArg List.length hslice
      simp only [Text.slice, List.length_drop, List.length_take] at hcount
      omega
    have htake : t.take (i + w.length) = t.take i ++ w := by
      have hsplit := List.take_append_drop i (t.take (i + w.length))
      rw [List.take_take, Nat.min_eq_left (Nat.le_add_right i _)] at hsplit
      rw [← hsplit]
      exact congrArg (t.take i ++ ·) hslice
    refine ⟨t.take i, t.drop (i + w.length), ?_, ?_, ?_, ?_, ?_⟩
    · rw [← List.append_assoc, ← htake, List.take_append_drop]
    · rw [List.length_take]
      omega
    · intro b hb
      rcases hbefore with rfl | ⟨c, hc, hword⟩
      · simp at hb
      · have hi : i ≠ 0 := by
          rintro rfl
          simp at hb
        rw [List.getLast?_take, if_neg hi, hc] at hb
        obtain rfl : c = b := by simpa using hb
        exact hword
    · intro b hb
      rw [List.head?_drop] at hb
      rcases hafter with ⟨c, hc, hsep⟩ | ⟨-, hend⟩
      · rw [hc] at hb
        obtain rfl : c = b := by simpa using hb
        exact hsep
      · simp [hend] at hb
    · intro hnil
      rcases hafter with ⟨c, hc, -⟩ | ⟨hend, -⟩
      · rw [← List.head?_drop, hnil] at hc
        cases hc
      · exact hend
  · rintro ⟨u, v, rfl, rfl, hu, hv, hend⟩
    refine ⟨?_, ?_, ?_⟩
    · simp [Text.slice, List.take_append]
    · cases u using List.reverseRecOn with
      | nil => exact Or.inl rfl
      | append_singleton u b =>
        refine Or.inr ⟨b, ?_, hu b (by simp)⟩
        simp [List.append_assoc]
    · cases v with
      | nil => exact Or.inr ⟨hend rfl, by simp⟩
      | cons b v =>
        refine Or.inl ⟨b, ?_, hv b rfl⟩
        simp

/-- Without a condition on the end of the text, the two descriptions of a place agree. -/
theorem standsAt_iff_standsAlone {i : Nat} (hne : w ≠ []) :
    StandsAt true w t i ↔ StandsAlone w t i := by
  rw [standsAt_iff hne]
  simp [StandsAlone, EndsOutsideWord, ClosesWord]

/-! ## Words made of word bytes -/

/-- A word that stands alone is among the words of the text. -/
theorem mem_standing_of_standsAt (hw : ∀ b ∈ w, Byte.isWord b = true) (hne : w ≠ []) {i : Nat}
    (h : StandsAt atEnd w t i) : w ∈ t.standing atEnd := by
  obtain ⟨u, v, rfl, -, hu, hv, hend⟩ := (standsAt_iff hne).1 h
  rw [Text.standing_split hu hw hne hv hend]
  simp

/-- Two words that stand alone do not overlap: the one that begins before the other is among the
    words in front of it. -/
theorem mem_standing_of_standsAt_lt {before w' after : Text} (hbefore : EndsOutsideWord before)
    (hw' : ∀ b ∈ w', Byte.isWord b = true) (hne' : w' ≠ []) (hw : ∀ b ∈ w, Byte.isWord b = true)
    (hne : w ≠ []) {i : Nat} (hi : i < before.length)
    (h : StandsAt atEnd w (before ++ (w' ++ after)) i) : w ∈ before.standing := by
  obtain ⟨u, v, htext, rfl, hu, hv, -⟩ := (standsAt_iff hne).1 h
  obtain ⟨r, rfl⟩ : ∃ r, before = u ++ r := by
    have hprefix : u <+: before ++ (w' ++ after) := ⟨w ++ v, htext.symm⟩
    exact (List.prefix_of_prefix_length_le hprefix (List.prefix_append before _)
      (Nat.le_of_lt hi)).imp fun _ hr => hr.symm
  rw [List.append_assoc] at htext
  have hrest := List.append_cancel_left htext
  rcases List.append_eq_append_iff.1 hrest with ⟨w₂, rfl, hv'⟩ | ⟨v₁, rfl, rfl⟩
  · -- the text before the other word would end inside this one
    have hr : r ≠ [] := by
      rintro rfl
      simp at hi
    obtain ⟨b, hb⟩ := Option.isSome_iff_exists.1 (List.getLast?_isSome.2 hr)
    have hends := hbefore.of_append b hb
    have hword := hw b (List.mem_append_left _ (List.mem_of_getLast? hb))
    rw [hends] at hword
    cases hword
  · rw [Text.standing_split hu hw hne ?_ fun _ => rfl]
    · simp
    · -- what closes this word does not belong to the other one
      cases v₁ with
      | nil =>
        obtain ⟨b, w', rfl⟩ := List.exists_cons_of_ne_nil hne'
        have hsep := hv b rfl
        rw [Byte.isSeparator_of_isWord (hw' b List.mem_cons_self)] at hsep
        cases hsep
      | cons b v₁ =>
        intro c hc
        exact hv c hc

/-- **The search for plain words finds the least place where one of them stands alone.** -/
theorem Pattern.Plain.find?_foundFirst {p : Pattern} (hp : p.Plain) (t : Text) :
    FoundFirst p.words p.atEnd t (p.find? t) := by
  rcases hp.find?_cases t with ⟨hnone, hmiss⟩ | ⟨u, w, v, at_, hfirst, hat, hstart, hstop⟩
  · rw [hnone]
    intro w hw i hstands
    exact hmiss w (mem_standing_of_standsAt (hp w hw).2 (hp w hw).1 hstands) hw
  · rw [hat]
    refine ⟨⟨w, hfirst.holds, ?_, by rw [hstop, hstart]⟩, ?_⟩
    · exact (standsAt_iff hfirst.ne_nil).2 ⟨u, v, hfirst.text_eq, hstart.symm, hfirst.before_ends,
        hfirst.after_closes, hfirst.closedAtEnd⟩
    · intro w' hw' i hi hstands
      rw [hfirst.text_eq] at hstands
      have hmem := mem_standing_of_standsAt_lt hfirst.before_ends hfirst.isWord hfirst.ne_nil
        (hp w' hw').2 (hp w' hw').1 (hstart ▸ hi) hstands
      exact hfirst.first w' hmem hw'

/-! ## Other keywords -/

theorem IsFirst.foundFirst {found : Option Occurrence} (hne : w ≠ []) (h : IsFirst w t found) :
    FoundFirst [w] true t found := by
  cases found with
  | none => simpa [FoundFirst, IsFirst, standsAt_iff_standsAlone hne] using h
  | some at_ =>
    obtain ⟨hstands, hstop, hleast⟩ := h
    simpa [FoundFirst, standsAt_iff_standsAlone hne, hstop] using ⟨hstands, hleast⟩

/-! ## The white space behind a keyword -/

/-- A keyword that may not end the text is found with one byte of white space behind it. -/
theorem Pattern.scan_next {p : Pattern} (hend : p.atEnd = false) {pos skip : Nat}
    {afterWord : Bool} {at_ : Occurrence} (h : p.scan pos afterWord skip t = some at_) :
    at_.next = at_.stop + 1 := by
  induction t generalizing pos skip afterWord with
  | nil => simp [scan] at h
  | cons b rest ih =>
    cases skip with
    | succ skip => exact ih (by rwa [scan] at h)
    | zero =>
      rw [scan] at h
      split at h
      · next n c hfront =>
        split at h
        · exact ih h
        · obtain ⟨w, -, v, -, rfl, hclosing⟩ := front?_eq_some hfront
          cases h
          rcases closing?_cases hclosing with ⟨-, hend', -⟩ | ⟨s, rest, -, -, rfl⟩
          · rw [hend] at hend'
            cases hend'
          · rfl
      · exact ih h

/-! ## The three searches -/

theorem findVisibility?_foundFirst {lang : Language}
    (hnames : ∀ v ∈ lang.allVisibilities, ∀ b ∈ v, Byte.isWord b = true) (t : Text) :
    FoundFirst lang.allVisibilities true t (lang.withVisibilityPattern.findVisibility? t) := by
  have hplain : lang.withVisibilityPattern.visibility.Plain := fun v hv =>
    ⟨(Language.mem_allVisibilities.1 hv).2, hnames v hv⟩
  exact hplain.find?_foundFirst t

theorem findStart?_foundFirst {lang : Language} (hsound : lang.SoundKeywords) {p : Pattern}
    (hstart : lang.declarationStart = some p) (hend : p.atEnd = false) (t : Text) :
    FoundFirst p.words false t (lang.findStart? t) ∧
      ∀ at_ ∈ lang.findStart? t, at_.next = at_.stop + 1 := by
  have hplain : p.Plain := Pattern.plain_of_isHeaderWord fun w hw =>
    hsound.1 w (by simpa [Language.startWords, hstart] using hw)
  have hfind : lang.findStart? t = p.find? t := by rw [Language.findStart?, hstart]; rfl
  rw [hfind]
  refine ⟨hend ▸ hplain.find?_foundFirst t, fun at_ hat => ?_⟩
  rw [hplain.find?_eq] at hat
  exact Pattern.scan_next hend hat

/-- **Searches find the first place where one of their words stands alone,** and nothing only if
    there is none, in every text: the search for a token with any keyword of ASCII bytes without
    white space, the search for visibilities of any names made of word bytes, and the search for the
    keywords that open a declaration in either language, which is found with the white space byte
    behind it. -/
theorem search_findsFirst (t : Text) :
    (∀ (m : Modifier) (keyword : Text) (position : Position) (placement : Placement)
      (targets : List Kind),
      keyword ≠ [] → (∀ b ∈ keyword, b < 0x80 ∧ Byte.isSeparator b = false) →
        FoundFirst [keyword] true t
          ((Token.new m keyword position placement targets).find? t)) ∧
    (∀ lang : Language, (∀ v ∈ lang.allVisibilities, ∀ b ∈ v, Byte.isWord b = true) →
      FoundFirst lang.allVisibilities true t (lang.withVisibilityPattern.findVisibility? t)) ∧
    ∀ opts : LanguageOptions,
      (FoundFirst [utf8 "class", utf8 "interface", utf8 "abstract", utf8 "enum", utf8 "typedef",
          utf8 "var", utf8 "function"] false t ((Language.haxe opts).findStart? t) ∧
        ∀ at_ ∈ (Language.haxe opts).findStart? t, at_.next = at_.stop + 1) ∧
      FoundFirst [utf8 "class", utf8 "interface", utf8 "var", utf8 "const", utf8 "function"] false
          t ((Language.actionScript3 opts).findStart? t) ∧
        ∀ at_ ∈ (Language.actionScript3 opts).findStart? t, at_.next = at_.stop + 1 := by
  refine ⟨fun m keyword position placement targets hne hbytes => ?_,
    fun lang hnames => findVisibility?_foundFirst hnames t, fun opts => ⟨?_, ?_⟩⟩
  · have hwords : (Token.patternOf keyword).words = [keyword] := by simp [Token.patternOf, hne]
    exact IsFirst.foundFirst hne (Pattern.find?_isFirst hwords rfl hne
      (fun b hb => (hbytes b hb).2) (fun b hb => (hbytes b hb).1) t)
  · exact findStart?_foundFirst (Language.haxe_soundKeywords opts) rfl rfl t
  · exact findStart?_foundFirst (Language.actionScript3_soundKeywords opts) rfl rfl t

/-- A keyword behind a word byte is jumped over, with the white space that closes it; names that
    begin alike do not get in each other's way. -/
theorem search_findsFirst_jumps :
    FoundFirst [utf8 "a-b"] true (utf8 "xa-b a-b a-b") (some ⟨5, 8, 9⟩) ∧
    FoundFirst [utf8 "pub", utf8 "public", utf8 "$x"] true (utf8 "publics $public public pub")
      (some ⟨16, 22, 23⟩) ∧
    FoundFirst [utf8 "class", utf8 "interface", utf8 "var", utf8 "const", utf8 "function"] false
      (utf8 "@var (class\tvar") (some ⟨6, 11, 12⟩) := by
  have hbytes : (utf8 "a-b").all (fun b => decide (b < 0x80) && !Byte.isSeparator b) = true := by
    decide
  have hnames : [utf8 "pub", utf8 "public", utf8 "$x"].all (·.all Byte.isWord) = true := by decide
  simp only [List.all_eq_true, Bool.and_eq_true, decide_eq_true_eq, Bool.not_eq_true'] at hbytes
  simp only [List.all_eq_true] at hnames
  exact ⟨(search_findsFirst (utf8 "xa-b a-b a-b")).1 .static (utf8 "a-b") .metadata .free []
      (by decide) hbytes,
    (search_findsFirst (utf8 "publics $public public pub")).2.1
      { Language.empty with customAccess := [utf8 "pub", utf8 "public", utf8 "$x"] } hnames,
    ((search_findsFirst (utf8 "@var (class\tvar")).2.2 {}).2.1⟩

end ModifierToggle.Keyword
