import ModifierToggle.Proofs.StandingWords
import ModifierToggle.Proofs.TokenEdits

set_option autoImplicit false

/-! # What is seen of a line

Inspection does not look at lines, but at the words that stand alone in their code, on the header
line only before the keyword. `Language.SeesSame` says that two codes show the same of these: both
or neither open a declaration, they have the same words, and where a declaration is opened, the same
visibility comes first. A token that is moved to the start of its line, or in front of the keyword,
is cut out at one place of the text and put in at another, and the code of the line is changed in
the same way as its text, provided that no slash next to the cut becomes the opening of a comment
(`strip_rejoined`). So what is seen stays the same (`Language.SeesSame.toStart_first`,
`Language.SeesSame.beforeKeyword`). -/

namespace ModifierToggle

/-! ## Taking a word out of a text -/

namespace Text

section

variable {atEnd : Bool} {u v w t : Text}

theorem standing_separator {s : UInt8} (hs : Byte.isSeparator s = true) (atEnd : Bool) (v : Text) :
    standing (s :: v) atEnd = v.standing atEnd := by
  rw [standing, standingFrom_closed hs]
  rfl

theorem hasLooseSlash_separator {s : UInt8} (hs : Byte.isSeparator s = true) (v : Text) :
    hasLooseSlash (s :: v) = v.hasLooseSlash := by
  have hslash : (s == Byte.slash) = false := by simpa using Byte.ne_slash_of_isSeparator hs
  rw [hasLooseSlash, looseSlashFrom, hslash]
  rfl

theorem isBlank_spaces (n : Nat) : ∀ b ∈ List.replicate n Byte.space, Byte.isBlank b = true := by
  intro b hb
  rw [List.eq_of_mem_replicate hb]
  rfl

theorem standing_blanks {blanks : Text} (hblanks : ∀ b ∈ blanks, Byte.isBlank b = true)
    (atEnd : Bool) (v : Text) : (blanks ++ v).standing atEnd = v.standing atEnd := by
  induction blanks with
  | nil => rfl
  | cons b blanks ih =>
    rw [List.cons_append,
      standing_separator (Byte.isSeparator_of_isBlank (hblanks b List.mem_cons_self)),
      ih fun c hc => hblanks c (List.mem_cons_of_mem _ hc)]

theorem standing_blanks_behind (u : Text) {blanks : Text}
    (hblanks : ∀ b ∈ blanks, Byte.isBlank b = true) : (u ++ blanks).standing = u.standing := by
  have hcloses : ClosesWord blanks := fun b hb =>
    Byte.isSeparator_of_isBlank (hblanks b (List.mem_of_mem_head? hb))
  have hnone := standing_blanks hblanks true []
  rw [List.append_nil] at hnone
  rw [standing_append_closed u hcloses fun _ => rfl, hnone]
  exact List.append_nil _

theorem hasLooseSlash_blanks {blanks : Text} (hblanks : ∀ b ∈ blanks, Byte.isBlank b = true)
    (v : Text) : (blanks ++ v).hasLooseSlash = v.hasLooseSlash := by
  induction blanks with
  | nil => rfl
  | cons b blanks ih =>
    rw [List.cons_append,
      hasLooseSlash_separator (Byte.isSeparator_of_isBlank (hblanks b List.mem_cons_self)),
      ih fun c hc => hblanks c (List.mem_cons_of_mem _ hc)]

/-- Behind the text, a word can be cut out with a blank beside it, and no slash comes to stand
    before what follows. -/
def EndsClear (u : Text) : Prop :=
  u.getLast? ≠ some Byte.slash ∧
    ∀ u' b, u = u' ++ [b] → Byte.isBlank b = true → u'.getLast? ≠ some Byte.slash

theorem EndsClear.of_append (h : EndsClear (u ++ v)) : EndsClear v := by
  refine ⟨fun hlast => h.1 (by simp [List.getLast?_append, hlast]), ?_⟩
  rintro v' b rfl hb hlast
  refine h.2 (u ++ v') b (by simp) hb ?_
  simp [List.getLast?_append, hlast]

/-- Where no slash is loose, words can be cut out. -/
theorem endsClear_of_hasLooseSlash (hw : ∀ b ∈ w, Byte.isWord b = true) (hv : ClosesWord v)
    (h : (u ++ (w ++ v)).hasLooseSlash = false) : EndsClear u := by
  refine ⟨not_slash_before_word hw hv h, ?_⟩
  rintro u' b rfl hb
  have hcloses : ClosesWord (b :: (w ++ v)) := by
    simpa [ClosesWord] using Byte.isSeparator_of_isBlank hb
  refine not_slash_before_word (w := []) (by simp) hcloses ?_
  simpa using h

namespace Rejoined

theorem standing_eq (h : Rejoined u v t) (hu : EndsOutsideWord u) (hv : ClosesWord v)
    (hend : v = [] → atEnd = true) :
    t.standing atEnd = u.standing ++ v.standing atEnd := by
  cases h with
  | exact => exact standing_append hu v atEnd
  | @blankAfter c v' hc hv =>
    rw [standing_append hu, hv, standing_separator (Byte.isSeparator_of_isBlank hc)]
  | @blankBefore c u' hc hu =>
    have hsep := Byte.isSeparator_of_isBlank hc
    have hclosed : (u' ++ [c]).standing = u'.standing ++ standing [c] :=
      standing_append_closed u' (by simpa [ClosesWord] using hsep) fun _ => rfl
    rw [standing_append_closed u' hv hend, hu, hclosed, standing_separator hsep]
    simp [standing, standingFrom]

/-- Without the end of the text to close it, no other word stands alone. -/
theorem mem_standing (h : Rejoined u v t) (hu : EndsOutsideWord u) (hv : ClosesWord v)
    (hw : w ∈ t.standing false) : w ∈ u.standing ++ v.standing false := by
  cases v with
  | nil =>
    have hmem := mem_standing_of_closed hw
    rw [h.standing_eq hu hv fun _ => rfl] at hmem
    simpa [standing, standingFrom] using hmem
  | cons s v => rwa [h.standing_eq hu hv (by simp)] at hw

theorem hasLooseSlash_eq (h : Rejoined u v t) (hu : EndsOutsideWord u)
    (hslash : u.getLast? ≠ some Byte.slash) (hv : ClosesWord v) :
    t.hasLooseSlash = (u.hasLooseSlash || v.hasLooseSlash) := by
  cases h with
  | exact => exact hasLooseSlash_append hu hslash v
  | @blankAfter c v' hc hv =>
    rw [hasLooseSlash_append hu hslash, hv,
      hasLooseSlash_separator (Byte.isSeparator_of_isBlank hc)]
  | @blankBefore c u' hc hu =>
    have hsep := Byte.isSeparator_of_isBlank hc
    have hclosed : (u' ++ [c]).hasLooseSlash = (u'.hasLooseSlash || hasLooseSlash [c]) :=
      hasLooseSlash_append_closed u' (by simpa [ClosesWord] using hsep)
    rw [hasLooseSlash_append_closed u' hv, hu, hclosed, hasLooseSlash_separator hsep]
    simp [hasLooseSlash, looseSlashFrom]

theorem endsOutsideWord (h : Rejoined u v t) (hu : EndsOutsideWord u) (hv : EndsOutsideWord v)
    (hne : v ≠ []) : EndsOutsideWord t := by
  cases h with
  | exact => exact .append (fun _ => hu) hv
  | @blankAfter c v' hc hveq =>
    subst hveq
    exact .append (fun _ => hu) (EndsOutsideWord.of_append (u := [c]) hv)
  | blankBefore hc hu => exact .append (fun hnil => absurd hnil hne) hv

/-- What stands before the cut stays there. -/
theorem exists_front {pre : Text} (h : Rejoined (pre ++ u) v t) (hne : u ≠ []) :
    ∃ t', t = pre ++ t' ∧ Rejoined u v t' := by
  cases h with
  | exact => exact ⟨u ++ v, List.append_assoc .., .exact⟩
  | @blankAfter c v' hc hv => exact ⟨u ++ v', List.append_assoc .., .blankAfter hc hv⟩
  | @blankBefore c u' hc hu =>
    obtain ⟨u'', d, rfl⟩ := (List.eq_nil_or_concat' u).resolve_left hne
    rw [← List.append_assoc] at hu
    obtain ⟨rfl, hd⟩ := List.append_inj' hu rfl
    obtain rfl := List.singleton_inj.1 hd
    exact ⟨u'' ++ v, List.append_assoc .., .blankBefore hc rfl⟩

/-- So does what stands behind it. -/
theorem exists_back {post : Text} (h : Rejoined u (v ++ post) t) (hne : v ≠ []) :
    ∃ t', t = t' ++ post ∧ Rejoined u v t' := by
  cases h with
  | exact => exact ⟨u ++ v, (List.append_assoc ..).symm, .exact⟩
  | @blankAfter c v' hc hv =>
    obtain ⟨d, v'', rfl⟩ := List.exists_cons_of_ne_nil hne
    obtain ⟨rfl, rfl⟩ := List.cons.inj hv
    exact ⟨u ++ v'', (List.append_assoc ..).symm, .blankAfter hc rfl⟩
  | @blankBefore c u' hc hu =>
    exact ⟨u' ++ v, (List.append_assoc ..).symm, .blankBefore hc hu⟩

end Rejoined

/-- The blanks that a text starts with, apart from the rest of it. -/
theorem exists_indent (t : Text) :
    ∃ blanks rest, t = blanks ++ rest ∧ (∀ b ∈ blanks, Byte.isBlank b = true) ∧
      (∀ b ∈ rest.head?, Byte.isBlank b = false) ∧ t.indent = blanks.length := by
  refine ⟨t.takeWhile Byte.isBlank, t.dropWhile Byte.isBlank, ?_, ?_, ?_, rfl⟩
  · exact (List.takeWhile_append_dropWhile).symm
  · exact List.all_eq_true.1 List.all_takeWhile
  · intro b hb
    have hdrop := List.head?_dropWhile_not Byte.isBlank t
    rw [Option.mem_def.1 hb] at hdrop
    simpa using hdrop

/-- What stands at the end of a text does not depend on what is before it. -/
theorem getLast?_congr {u u' v : Text} (hv : v ≠ []) : (u ++ v).getLast? = (u' ++ v).getLast? := by
  rw [List.getLast?_append_of_ne_nil _ hv, List.getLast?_append_of_ne_nil _ hv]

theorem indent_append {u v : Text} (hv : ∀ b ∈ v.head?, Byte.isBlank b = false) :
    (u ++ v).indent = u.indent := by
  induction u with
  | nil =>
    cases v with
    | nil => rfl
    | cons b v => simp [indent, hv b rfl]
  | cons b u ih =>
    cases hb : Byte.isBlank b with
    | false => simp [indent, hb]
    | true =>
      simp only [indent, List.cons_append, List.takeWhile_cons, hb] at ih ⊢
      simpa using ih

/-- The word is the first one behind another text too. -/
theorem FirstStanding.withFront {q : Text → Prop} {before before' after : Text}
    (h : FirstStanding q atEnd t before w after) (hends : EndsOutsideWord before')
    (hwords : ∀ v ∈ before'.standing, v ∈ before.standing) :
    FirstStanding q atEnd (before' ++ (w ++ after)) before' w after :=
  { h with
    text_eq := rfl
    before_ends := hends
    first := fun v hv => h.first v (hwords v hv) }

end

/-! ### Moving a word to the front -/

theorem closesWord_space (t : Text) : ClosesWord (Byte.space :: t) := by
  intro b hb
  obtain rfl := Option.some.inj hb
  decide

namespace FirstStanding

variable {k part before after : Text} (hfirst : FirstStanding (· = k) true part before k after)

include hfirst

/-- A word that stands before another one has something between the two. -/
theorem after_ne_nil (hends : EndsOutsideWord part) : after ≠ [] := by
  rintro rfl
  obtain ⟨k', b, rfl⟩ := (List.eq_nil_or_concat' k).resolve_left hfirst.ne_nil
  have hb := hends b (by rw [hfirst.text_eq]; simp [List.getLast?_append])
  rw [hfirst.isWord b (by simp)] at hb
  cases hb

theorem hasLooseSlash_eq (hslash : before.getLast? ≠ some Byte.slash) :
    part.hasLooseSlash = (before.hasLooseSlash || after.hasLooseSlash) := by
  rw [hfirst.text_eq, hasLooseSlash_append hfirst.before_ends hslash,
    hasLooseSlash_append_closed k hfirst.after_closes,
    hasLooseSlash_of_noSlash fun b hb => Byte.ne_slash_of_isWord (hfirst.isWord b hb),
    Bool.false_or]

section

variable {blanks before₂ t : Text} (hbefore : before = blanks ++ before₂)
  (hblanks : ∀ b ∈ blanks, Byte.isBlank b = true)

include hblanks in
/-- The words of a text with the word and a space put in after the indentation. -/
theorem standing_toStart (t : Text) (atEnd : Bool) :
    (blanks ++ (k ++ Byte.space :: t)).standing atEnd = k :: t.standing atEnd := by
  rw [standing_blanks hblanks, standing_append_closed k (closesWord_space t) (by simp),
    standing_word hfirst.isWord hfirst.ne_nil, standing_separator (by decide)]
  rfl

variable (ht : Rejoined before₂ after t)

include hbefore ht

theorem endsOutsideWord_toStart (hends : EndsOutsideWord part) :
    EndsOutsideWord (blanks ++ (k ++ Byte.space :: t)) := by
  have hbefore' : EndsOutsideWord (blanks ++ before₂) := hbefore ▸ hfirst.before_ends
  have hpart : EndsOutsideWord (before ++ k ++ after) := by
    rwa [List.append_assoc, ← hfirst.text_eq]
  have ht' := ht.endsOutsideWord hbefore'.of_append hpart.of_append (hfirst.after_ne_nil hends)
  have hspace : EndsOutsideWord (blanks ++ k ++ [Byte.space]) := endsOutsideWord_snoc (by decide)
  simpa using EndsOutsideWord.append (fun _ => hspace) ht'

include hblanks

theorem words_toStart :
    (blanks ++ (k ++ Byte.space :: t)).standing = k :: (before.standing ++ after.standing) := by
  have hends : EndsOutsideWord (blanks ++ before₂) := hbefore ▸ hfirst.before_ends
  rw [standing_toStart hfirst hblanks, hbefore, standing_blanks hblanks,
    ht.standing_eq hends.of_append hfirst.after_closes fun _ => rfl]

theorem perm_toStart : (blanks ++ (k ++ Byte.space :: t)).standing.Perm part.standing := by
  rw [hfirst.words_toStart hbefore hblanks ht, hfirst.standing_eq]
  exact List.perm_middle.symm

theorem hasLooseSlash_toStart (hslash : before.getLast? ≠ some Byte.slash) :
    (blanks ++ (k ++ Byte.space :: t)).hasLooseSlash = part.hasLooseSlash := by
  have hends : EndsOutsideWord (blanks ++ before₂) := hbefore ▸ hfirst.before_ends
  have hslash₂ : before₂.getLast? ≠ some Byte.slash := fun hlast =>
    hslash (by simp [hbefore, List.getLast?_append, hlast])
  rw [hasLooseSlash_eq hfirst hslash, hbefore, hasLooseSlash_blanks hblanks,
    hasLooseSlash_blanks hblanks, hasLooseSlash_append_closed k (closesWord_space t),
    hasLooseSlash_separator (by decide),
    hasLooseSlash_of_noSlash fun b hb => Byte.ne_slash_of_isWord (hfirst.isWord b hb),
    Bool.false_or, ht.hasLooseSlash_eq hends.of_append hslash₂ hfirst.after_closes]

end

end FirstStanding

end Text

namespace LineEdit

open Text (Rejoined)

variable {x a k c : Text}

/-- Nothing stands between a place and itself. -/
theorem all_annotates_slice_self (x : Text) (i : Nat) :
    (x.slice i i).words.all annotates = true := by
  rw [Text.slice, List.drop_eq_nil_of_le (List.length_take_le _ _)]
  rfl

/-- What a line is when a word that does not stand at the start has been moved there. -/
theorem exists_movedToStart (hx : x = a ++ (k ++ c)) (hk : ∀ b ∈ k, Byte.isWord b = true)
    (hne : k ≠ []) (hmoved : x.indent ≠ a.length) :
    ∃ blanks a₂ t, a = blanks ++ a₂ ∧ (∀ b ∈ blanks, Byte.isBlank b = true) ∧ a₂ ≠ [] ∧
      x.indent = blanks.length ∧ Rejoined a₂ c t ∧
      insertAt (cut x a.length (a.length + k.length)) k x.indent
        = blanks ++ (k ++ Byte.space :: t) := by
  obtain ⟨b, k', rfl⟩ := List.exists_cons_of_ne_nil hne
  have hindent : x.indent = a.indent := by
    rw [hx]
    exact Text.indent_append (by simpa using Byte.isBlank_of_isWord (hk b List.mem_cons_self))
  obtain ⟨blanks, a₂, rfl, hblanks, -, hlength⟩ := a.exists_indent
  have ha₂ : a₂ ≠ [] := by
    rintro rfl
    exact hmoved (by rw [hindent, hlength, List.append_nil])
  have hcut := cut_rejoined (blanks ++ a₂) (b :: k') c
  rw [← hx] at hcut
  obtain ⟨t, ht, hrejoined⟩ := hcut.exists_front ha₂
  refine ⟨blanks, a₂, t, rfl, hblanks, ha₂, hindent.trans hlength, hrejoined, ?_⟩
  rw [ht, hindent, hlength, insertAt_length]
  simp

/-- What a line is when a word has been moved in front of `d`. -/
theorem exists_movedBefore {d : Text} (hx : x = a ++ (k ++ (c ++ d))) (hne : c ≠ []) :
    let rest := cut x a.length (a.length + k.length)
    ∃ t, Rejoined a c t ∧
      insertAt rest k (a.length + k.length + c.length - (x.length - rest.length))
        = t ++ (k ++ Byte.space :: d) := by
  intro rest
  have hcut := cut_rejoined a k (c ++ d)
  rw [← hx] at hcut
  obtain ⟨t, ht, hrejoined⟩ := hcut.exists_back hne
  have hposition : a.length + k.length + c.length - (x.length - rest.length) = t.length := by
    have hle := hcut.length_le
    rw [ht] at hle
    simp only [rest, ht, hx, List.length_append] at hle ⊢
    omega
  refine ⟨t, hrejoined, ?_⟩
  rw [hposition]
  simp only [rest, ht, insertAt_length, List.append_assoc, List.cons_append, List.nil_append]

end LineEdit

namespace Comment

open Text (Rejoined EndsClear)

/-- Before a word, a slash does not open a comment. -/
theorem not_opens_word {w : Text} (hw : ∀ b ∈ w, Byte.isWord b = true) (hne : w ≠ []) (x : Text) :
    ¬ Opens Byte.slash (w ++ x) := by
  obtain ⟨b, w', rfl⟩ := List.exists_cons_of_ne_nil hne
  have hb := hw b List.mem_cons_self
  rintro ⟨-, hhead | hhead⟩
  · obtain rfl := Option.some.inj hhead
    exact absurd hb (by decide)
  · obtain rfl := Option.some.inj hhead
    exact absurd hb (by decide)

/-- A word of the code stands in the text, and what is behind it is read as code. -/
theorem exists_word {m : Mode} {x before w after : Text} {opened : Bool}
    (h : strip m x = (before ++ (w ++ after), opened)) (hne : w ≠ [])
    (hw : ∀ b ∈ w, Byte.isWord b = true) :
    ∃ a y, x = a ++ (w ++ y) ∧ Reads m a before ∧ strip .code y = (after, opened) :=
  exists_text h hne fun b hb hspace => absurd (hw b hb) (by rw [hspace]; decide)

theorem strip_word {w : Text} (hw : ∀ b ∈ w, Byte.isWord b = true) (t : Text) :
    strip .code (w ++ t) = (w ++ (strip .code t).1, (strip .code t).2) :=
  strip_append (fun b hb => Byte.ne_slash_of_isWord (hw b hb)) t

theorem strip_word_space {w : Text} (hw : ∀ b ∈ w, Byte.isWord b = true) (t : Text) :
    strip .code (w ++ Byte.space :: t)
      = (w ++ Byte.space :: (strip .code t).1, (strip .code t).2) := by
  rw [strip_word hw, strip_byte fun hopens => absurd hopens.1 (by decide)]

/-- **The code of a line is rejoined like its text,** and loses as many bytes, unless a slash comes
    to stand before what is behind the cut. -/
theorem strip_rejoined {m : Mode} {a c t before after : Text} {opened : Bool}
    (ha : Reads m a before) (hc : strip .code c = (after, opened)) (ht : Rejoined a c t)
    (hclear : EndsClear before) :
    ∃ code, Rejoined before after code ∧ strip m t = (code, opened) ∧
      code.length + (a.length + c.length) = t.length + (before.length + after.length) := by
  cases ht with
  | exact =>
    refine ⟨before ++ after, .exact, ?_, by simp only [List.length_append]; omega⟩
    rw [ha.strip_append fun hlast => absurd hlast hclear.1, hc]
  | @blankAfter b c' hb hcons =>
    have hslash := Byte.ne_slash_of_isSeparator (Byte.isSeparator_of_isBlank hb)
    rw [hcons, strip_byte fun hopens => hslash hopens.1] at hc
    obtain ⟨rfl, rfl⟩ := Prod.mk.inj hc
    refine ⟨before ++ (strip .code c').1, .blankAfter hb rfl, ?_, ?_⟩
    · exact ha.strip_append fun hlast => absurd hlast hclear.1
    · simp only [hcons, List.length_append, List.length_cons]
      omega
  | @blankBefore b a' hb hsnoc =>
    have hslash := Byte.ne_slash_of_isSeparator (Byte.isSeparator_of_isBlank hb)
    rw [hsnoc] at ha
    obtain ⟨before', rfl, ha'⟩ := ha.snoc_inv hslash
    refine ⟨before' ++ after, .blankBefore hb rfl, ?_, ?_⟩
    · rw [ha'.strip_append fun hlast => absurd hlast (hclear.2 before' b rfl hb), hc]
    · simp only [hsnoc, List.length_append, List.length_singleton]
      omega

/-- A word that is moved to the start of a line moves there in its code. -/
theorem strip_movedToStart {x a k c before after : Text} {opened : Bool} (hx : x = a ++ (k ++ c))
    (ha : Reads .code a before) (hc : strip .code c = (after, opened))
    (hk : ∀ b ∈ k, Byte.isWord b = true) (hne : k ≠ []) (hclear : EndsClear before)
    (hmoved : x.indent ≠ a.length) :
    ∃ blanks a₂ before₂ t code, a = blanks ++ a₂ ∧ (∀ b ∈ blanks, Byte.isBlank b = true) ∧
      a₂ ≠ [] ∧ x.indent = blanks.length ∧ before = blanks ++ before₂ ∧
      Rejoined a₂ c t ∧ Rejoined before₂ after code ∧
      code.length + (a₂.length + c.length) = t.length + (before₂.length + after.length) ∧
      LineEdit.insertAt (LineEdit.cut x a.length (a.length + k.length)) k x.indent
        = blanks ++ (k ++ Byte.space :: t) ∧
      strip .code (blanks ++ (k ++ Byte.space :: t))
        = (blanks ++ (k ++ Byte.space :: code), opened) := by
  obtain ⟨blanks, a₂, t, rfl, hblanks, ha₂, hindent, hrejoined, hline⟩ :=
    LineEdit.exists_movedToStart hx hk hne hmoved
  have hnoSlash : ∀ c ∈ blanks, c ≠ Byte.slash := fun c hc =>
    Byte.ne_slash_of_isSeparator (Byte.isSeparator_of_isBlank (hblanks c hc))
  obtain ⟨before₂, rfl, hreads⟩ := ha.append_left_inv hnoSlash
  obtain ⟨code, hcode, hstrip, hshorter⟩ := strip_rejoined hreads hc hrejoined hclear.of_append
  refine ⟨blanks, a₂, before₂, t, code, rfl, hblanks, ha₂, hindent, rfl, hrejoined, hcode,
    hshorter, hline, ?_⟩
  rw [strip_append hnoSlash, strip_word_space hk, hstrip]

/-- A word that is moved in front of a later one moves there in the code, and the end of the line
    stays as it is. -/
theorem strip_movedBefore {m : Mode} {x a k c before after rest : Text} {opened : Bool}
    (hx : x = a ++ (k ++ c)) (ha : Reads m a before)
    (hc : strip .code c = (after ++ rest, opened)) (hk : ∀ b ∈ k, Byte.isWord b = true)
    (hne : k ≠ []) (hrest : ∃ w v, rest = w ++ v ∧ w ≠ [] ∧ ∀ b ∈ w, Byte.isWord b = true)
    (hclear : EndsClear before) (hafter : after ≠ []) :
    let cut := LineEdit.cut x a.length (a.length + k.length)
    let y := LineEdit.insertAt cut k
      (a.length + k.length + after.length - (x.length - cut.length))
    ∃ code t d, Rejoined before after code ∧
      strip m y = (code ++ (k ++ Byte.space :: rest), opened) ∧ y = t ++ (k ++ Byte.space :: d) ∧
      code.length = m.width + t.length ∧ y.getLast? = x.getLast? := by
  intro cut y
  obtain ⟨w, v, rfl, hwne, hw⟩ := hrest
  obtain ⟨c₁, z, rfl, hreads, hz⟩ := exists_word hc hwne hw
  have hc₁ : c₁.length = after.length := by simpa [Mode.width] using hreads.length_eq.symm
  have hc₁ne : c₁ ≠ [] := by
    rintro rfl
    exact hafter (List.length_eq_zero_iff.1 hc₁.symm)
  obtain ⟨t₁, hrejoined, hy⟩ := LineEdit.exists_movedBefore hx hc₁ne
  rw [hc₁] at hy
  have hy : y = t₁ ++ (k ++ Byte.space :: (w ++ z)) := hy
  -- the text after the move is what is left of another line, which has the word where it goes
  have hline : Rejoined a (c₁ ++ (k ++ Byte.space :: (w ++ z)))
      (t₁ ++ (k ++ Byte.space :: (w ++ z))) := by
    simpa using hrejoined.fill [] (k ++ Byte.space :: (w ++ z))
  have hback : strip .code (k ++ Byte.space :: (w ++ z))
      = (k ++ Byte.space :: (w ++ v), opened) := by
    rw [strip_word_space hk, strip_word hw, hz]
  have hstrip := hreads.strip_append fun _ => not_opens_word hk hne (Byte.space :: (w ++ z))
  rw [hback] at hstrip
  obtain ⟨code, hcode, hstrip, hlength⟩ := strip_rejoined ha hstrip hline hclear
  obtain ⟨code₁, rfl, hcode₁⟩ := hcode.exists_back hafter
  refine ⟨code₁, t₁, w ++ z, hcode₁, ?_, hy, ?_, ?_⟩
  · rw [hy]
    simpa using hstrip
  · have hbefore := ha.length_eq
    simp only [List.length_append, List.length_cons] at hlength
    omega
  · have hlast : (t₁ ++ k ++ [Byte.space] ++ (w ++ z)).getLast?
        = (a ++ k ++ c₁ ++ (w ++ z)).getLast? := Text.getLast?_congr (by simp [hwne])
    simpa [hy, hx] using hlast

end Comment

/-! ## What is seen of the code of a line -/

namespace Language

open Text (EndsOutsideWord ClosesWord FirstStanding Rejoined)

/-- The part of a code where modifiers are looked for. -/
def modifierPart (lang : Language) (code : Text) : Text :=
  match lang.findStart? code with
  | some at_ => code.take at_.start
  | none => code

theorem modifierPart_congr {lang lang₀ : Language}
    (h : lang₀.declarationStart = lang.declarationStart) (code : Text) :
    lang.modifierPart code = lang₀.modifierPart code := by
  rw [modifierPart, modifierPart, findStart?_congr h]

/-- The words among which modifiers are found. -/
def modifierWords (lang : Language) (code : Text) : List Text := (lang.modifierPart code).standing

/-- Two codes show the same: both or neither open a declaration, and they have the same words where
    modifiers are looked for, with the same visibility first where a declaration is opened. -/
structure SeesSame (lang : Language) (code code' : Text) : Prop where
  opens : (lang.findStart? code').isSome = (lang.findStart? code).isSome
  words : (lang.modifierWords code').Perm (lang.modifierWords code)
  visibility : (lang.findStart? code).isSome = true →
    (lang.modifierWords code').find? lang.isVisibility
      = (lang.modifierWords code).find? lang.isVisibility
  looseSlash : (lang.modifierPart code).hasLooseSlash = false →
    (lang.modifierPart code').hasLooseSlash = false

variable {lang : Language}

theorem SeesSame.refl (lang : Language) (code : Text) : lang.SeesSame code code :=
  ⟨rfl, .refl _, fun _ => rfl, id⟩

/-! ### The keyword that opens a declaration -/

/-- Either no keyword opens a declaration, or the code is split at the first one that does. -/
theorem start_cases (lang : Language) (code : Text) :
    (∀ w ∈ code.standing false, w ∉ lang.startWords) ∨
      ∃ before keyword after,
        FirstStanding (· ∈ lang.startWords) false code before keyword after := by
  by_cases h : ∃ w ∈ code.standing false, w ∈ lang.startWords
  · exact Or.inr (Text.exists_firstStanding h)
  · exact Or.inl fun w hw hmem => h ⟨w, hw, hmem⟩

section

variable (hlang : lang.Customary) {code before keyword after : Text}

include hlang

theorem findStart?_first
    (h : FirstStanding (· ∈ lang.startWords) false code before keyword after) :
    ∃ at_, lang.findStart? code = some at_ ∧ at_.start = before.length := by
  cases hstart : lang.declarationStart with
  | none => exact absurd h.holds (by simp [startWords, hstart])
  | some p =>
    have hfirst : FirstStanding (· ∈ p.words) p.atEnd code before keyword after := by
      rw [hlang.start_atEnd p hstart]
      simpa [startWords, hstart] using h
    obtain ⟨at_, hat, hat_start, -⟩ := (hlang.start_plain hstart).find?_first hfirst
    exact ⟨at_, by rw [findStart?, hstart]; exact hat, hat_start⟩

theorem findStart?_eq_none (h : ∀ w ∈ code.standing false, w ∉ lang.startWords) :
    lang.findStart? code = none := by
  cases hstart : lang.declarationStart with
  | none => rw [findStart?, hstart]; rfl
  | some p =>
    rw [findStart?, hstart]
    refine (hlang.start_plain hstart).find?_eq_none ?_
    rw [hlang.start_atEnd p hstart]
    simpa [startWords, hstart] using h

theorem modifierPart_first
    (h : FirstStanding (· ∈ lang.startWords) false code before keyword after) :
    lang.modifierPart code = before := by
  obtain ⟨at_, hat, hstart⟩ := findStart?_first hlang h
  rw [modifierPart, hat]
  simp only
  rw [hstart, h.text_eq, List.take_left]

theorem modifierPart_eq_self (h : ∀ w ∈ code.standing false, w ∉ lang.startWords) :
    lang.modifierPart code = code := by
  rw [modifierPart, findStart?_eq_none hlang h]

/-- On a header line only what stands before the keyword counts. -/
theorem SeesSame.of_first {before' : Text}
    (h : FirstStanding (· ∈ lang.startWords) false code before keyword after)
    (hends : EndsOutsideWord before') (hwords : before'.standing.Perm before.standing)
    (hvisibility : before'.standing.find? lang.isVisibility
      = before.standing.find? lang.isVisibility)
    (hslash : before.hasLooseSlash = false → before'.hasLooseSlash = false) :
    lang.SeesSame code (before' ++ (keyword ++ after)) := by
  have h' := h.withFront hends fun w hw => hwords.mem_iff.1 hw
  obtain ⟨at_, hat, -⟩ := findStart?_first hlang h
  obtain ⟨at_', hat', -⟩ := findStart?_first hlang h'
  have hpart := modifierPart_first hlang h
  have hpart' := modifierPart_first hlang h'
  refine ⟨by rw [hat, hat']; rfl, ?_, fun _ => ?_, ?_⟩
  · rwa [modifierWords, modifierWords, hpart, hpart']
  · rwa [modifierWords, modifierWords, hpart, hpart']
  · rwa [hpart, hpart']

/-- On a line without a keyword everything counts, and no keyword may come to stand alone. -/
theorem SeesSame.of_noStart {code' : Text} (h : ∀ w ∈ code.standing false, w ∉ lang.startWords)
    (h' : ∀ w ∈ code'.standing false, w ∉ lang.startWords)
    (hwords : code'.standing.Perm code.standing)
    (hslash : code.hasLooseSlash = false → code'.hasLooseSlash = false) :
    lang.SeesSame code code' := by
  have hpart := modifierPart_eq_self hlang h
  have hpart' := modifierPart_eq_self hlang h'
  have hnone := findStart?_eq_none hlang h
  refine ⟨by rw [hnone, findStart?_eq_none hlang h'], ?_, fun hsome => ?_, ?_⟩
  · rwa [modifierWords, modifierWords, hpart, hpart']
  · rw [hnone] at hsome
    cases hsome
  · rwa [hpart, hpart']

end

/-! ### Moving a token -/

section

variable (hlang : lang.Customary) {k : Text} (hk : lang.IsModifierWord k)
  {code before after : Text}

include hlang

include hk in
/-- On a line without a keyword, a word can be moved to the start. -/
theorem SeesSame.toStart_noStart {blanks before₂ t : Text}
    (hnone : ∀ w ∈ code.standing false, w ∉ lang.startWords)
    (hfirst : FirstStanding (· = k) true code before k after)
    (hbefore : before = blanks ++ before₂) (hblanks : ∀ b ∈ blanks, Byte.isBlank b = true)
    (ht : Rejoined before₂ after t) (hslash : before.getLast? ≠ some Byte.slash) :
    lang.SeesSame code (blanks ++ (k ++ Byte.space :: t)) := by
  refine .of_noStart hlang hnone ?_ (hfirst.perm_toStart hbefore hblanks ht) fun h => by
    rwa [hfirst.hasLooseSlash_toStart hbefore hblanks ht hslash]
  intro w hw
  rw [hfirst.standing_toStart hblanks] at hw
  rcases List.mem_cons.1 hw with rfl | hw
  · exact hk.2
  · refine hnone w ?_
    have hends : EndsOutsideWord (blanks ++ before₂) := hbefore ▸ hfirst.before_ends
    rw [hfirst.text_eq, Text.standing_append hfirst.before_ends, hbefore,
      Text.standing_blanks hblanks]
    rcases List.mem_append.1 (ht.mem_standing hends.of_append hfirst.after_closes hw) with hw | hw
    · exact List.mem_append_left _ hw
    · refine List.mem_append_right _ ?_
      cases after with
      | nil => cases hw
      | cons s after =>
        rw [Text.standing_append_closed k hfirst.after_closes (by simp)]
        exact List.mem_append_right _ hw

variable (hvis : lang.isVisibility k = false) {front keyword tail : Text}
  (hstart : FirstStanding (· ∈ lang.startWords) false code front keyword tail)
  (hfirst : FirstStanding (· = k) true front before k after)

include hvis hstart hfirst

/-- On a header line too. -/
theorem SeesSame.toStart_first {blanks before₂ t : Text} (hbefore : before = blanks ++ before₂)
    (hblanks : ∀ b ∈ blanks, Byte.isBlank b = true) (ht : Rejoined before₂ after t)
    (hslash : before.getLast? ≠ some Byte.slash) :
    lang.SeesSame code (blanks ++ (k ++ Byte.space :: t) ++ (keyword ++ tail)) := by
  refine .of_first hlang hstart
    (hfirst.endsOutsideWord_toStart hbefore ht hstart.before_ends)
    (hfirst.perm_toStart hbefore hblanks ht) ?_ fun h => by
      rwa [hfirst.hasLooseSlash_toStart hbefore hblanks ht hslash]
  rw [hfirst.words_toStart hbefore hblanks ht, hfirst.standing_eq]
  simp [List.find?_append, hvis]

/-- A word can be moved in front of the keyword. -/
theorem SeesSame.beforeKeyword {t : Text} (ht : Rejoined before after t)
    (hslash : front.hasLooseSlash = false) :
    lang.SeesSame code (t ++ (k ++ Byte.space :: (keyword ++ tail))) := by
  have hfront : EndsOutsideWord (before ++ k ++ after) := by
    rw [List.append_assoc, ← hfirst.text_eq]
    exact hstart.before_ends
  have hne := hfirst.after_ne_nil hstart.before_ends
  have htEnds : EndsOutsideWord t := ht.endsOutsideWord hfirst.before_ends hfront.of_append hne
  have hbeforeSlash : before.getLast? ≠ some Byte.slash :=
    Text.not_slash_before_word hfirst.isWord hfirst.after_closes (hfirst.text_eq ▸ hslash)
  have htSlash : t.hasLooseSlash = false := by
    rw [ht.hasLooseSlash_eq hfirst.before_ends hbeforeSlash hfirst.after_closes,
      ← hfirst.hasLooseSlash_eq hbeforeSlash, hslash]
  have hspaced : ∀ b ∈ k ++ [Byte.space], b ≠ Byte.slash := by
    intro b hb
    rcases List.mem_append.1 hb with hb | hb
    · exact Byte.ne_slash_of_isWord (hfirst.isWord b hb)
    · obtain rfl := List.mem_singleton.1 hb
      decide
  have hwords : (t ++ (k ++ [Byte.space])).standing
      = before.standing ++ after.standing ++ [k] := by
    rw [Text.standing_split htEnds hfirst.isWord hfirst.ne_nil (Text.closesWord_space []) (by simp),
      ht.standing_eq hfirst.before_ends hfirst.after_closes fun _ => rfl,
      Text.standing_separator (by decide)]
    rfl
  have hseen : lang.SeesSame code (t ++ (k ++ [Byte.space]) ++ (keyword ++ tail)) := by
    refine .of_first hlang hstart ?_ ?_ ?_ fun _ => ?_
    · rw [← List.append_assoc]
      exact Text.endsOutsideWord_snoc (by decide)
    · rw [hwords, hfirst.standing_eq, List.append_assoc]
      exact (List.perm_append_singleton k _).append_left _
    · rw [hwords, hfirst.standing_eq]
      simp [List.find?_append, hvis]
    · have htLast : t.getLast? ≠ some Byte.slash :=
        Text.not_slash_before_word (w := []) (v := []) (by simp) (by simp [ClosesWord])
          (by simpa using htSlash)
      rw [Text.hasLooseSlash_append htEnds htLast, htSlash,
        Text.hasLooseSlash_of_noSlash hspaced]
      rfl
  simpa using hseen

end

end Language

end ModifierToggle
