import ModifierToggle.Proofs.Spaced

set_option autoImplicit false

/-! # Searching among spaced words

The search for keywords goes through a text byte by byte, and where it meets a keyword inside a
longer word, it jumps. On words with white space behind them none of this shows: the search looks at
one word after the other (`scan_word`), and finds the first one that is in the pattern
(`find?_word`), or nothing if there is none (`find?_spaced`). -/

namespace ModifierToggle

/-- What a text includes is made of bytes of the text. -/
theorem Text.mem_of_includes {t needle : Text} (h : t.includes needle = true) :
    ∀ b ∈ needle, b ∈ t := by
  induction t with
  | nil =>
    cases needle with
    | nil => simp
    | cons b needle => simp [includes, find?] at h
  | cons c t ih =>
    simp only [includes, find?] at h
    split at h
    · next hfront =>
      intro b hb
      exact (List.isPrefixOf_iff_prefix.1 hfront).subset hb
    · intro b hb
      refine List.mem_cons_of_mem _ (ih ?_ b hb)
      simpa [includes] using h

namespace Keyword.Pattern

/-- The words of the pattern are made of word bytes, and none is empty. -/
def Plain (p : Pattern) : Prop := ∀ w ∈ p.words, w ≠ [] ∧ ∀ b ∈ w, Byte.isWord b = true

variable {p : Pattern}

theorem Plain.hasReplacement (hp : p.Plain) : p.hasReplacement = false := by
  simp only [Pattern.hasReplacement, List.any_eq_false]
  intro w hw hincludes
  -- the replacement character starts with a byte that no word has
  have hmem : (0xEF : UInt8) ∈ w := Text.mem_of_includes hincludes _ (by decide)
  exact absurd ((hp w hw).2 _ hmem) (by decide)

theorem Plain.find?_eq (hp : p.Plain) (t : Text) : p.find? t = p.scan 0 false 0 t := by
  rw [find?, hp.hasReplacement]
  rfl

/-! ## The front of a text -/

/-- A word is closed by the end of the text or by white space. -/
theorem closing?_cases {v : Text} {n : Nat} (h : p.closing? v = some n) :
    (v = [] ∧ p.atEnd = true ∧ n = 0) ∨
      ∃ s rest, v = s :: rest ∧ Byte.isSeparator s = true ∧ n = 1 := by
  cases v with
  | nil =>
    rw [closing?, Option.ite_none_right_eq_some] at h
    exact Or.inl ⟨rfl, h.1, (Option.some.inj h.2).symm⟩
  | cons s rest =>
    rw [closing?, Option.ite_none_right_eq_some] at h
    exact Or.inr ⟨s, rest, rfl, h.1, (Option.some.inj h.2).symm⟩

/-- A word stands at the front, closed by what comes after, exactly if it is all that is there
    before the first byte that words do not have. -/
theorem closing?_word {w u v : Text} (hw : ∀ b ∈ w, Byte.isWord b = true)
    (hu : ∀ b ∈ u, Byte.isWord b = true) (hv : ∀ b ∈ v.head?, Byte.isWord b = false) :
    (if w.isPrefixOf (u ++ v) then p.closing? ((u ++ v).drop w.length) else none)
      = if w = u then p.closing? v else none := by
  -- the words are read side by side, and where one of them ends the byte after it tells them apart
  induction w generalizing u with
  | nil =>
    cases u with
    | nil => simp
    | cons b u =>
      have hb := Byte.isSeparator_of_isWord (hu b List.mem_cons_self)
      simp [closing?, hb]
  | cons a w ih =>
    have ha := hw a List.mem_cons_self
    cases u with
    | nil =>
      cases v with
      | nil => simp
      | cons s v =>
        have hne : a ≠ s := by
          rintro rfl
          exact absurd ha (by simp [hv a rfl])
        simp [List.isPrefixOf, hne]
    | cons b u =>
      by_cases hab : a = b
      · subst hab
        have hrest := ih (fun c hc => hw c (List.mem_cons_of_mem _ hc))
          (fun c hc => hu c (List.mem_cons_of_mem _ hc))
        simpa [List.isPrefixOf] using hrest
      · simp [List.isPrefixOf, hab]

/-- Looking for one word in a list of words. -/
theorem findSome?_eq_ite {words : List Text} {u : Text} {f : Text → Option (Nat × Nat)}
    {c : Option (Nat × Nat)} (h : ∀ w ∈ words, f w = if w = u then c else none) :
    words.findSome? f = if u ∈ words then c else none := by
  induction words with
  | nil => rfl
  | cons w words ih =>
    rw [List.findSome?_cons, h w List.mem_cons_self,
      ih fun v hv => h v (List.mem_cons_of_mem _ hv)]
    by_cases hwu : w = u
    · cases c <;> simp [hwu]
    · simp [List.mem_cons, hwu, Ne.symm hwu]

theorem Plain.front?_word (hp : p.Plain) {u v : Text} (hu : ∀ b ∈ u, Byte.isWord b = true)
    (hv : ∀ b ∈ v.head?, Byte.isWord b = false) :
    p.front? (u ++ v)
      = if u ∈ p.words then (p.closing? v).map fun n => (u.length, n) else none := by
  have heach : ∀ w ∈ p.words,
      (if w.isPrefixOf (u ++ v) then
        (p.closing? ((u ++ v).drop w.length)).map fun n => (w.length, n) else none)
      = if w = u then (p.closing? v).map fun n => (u.length, n) else none := by
    intro w hw
    have hclosing := congrArg (Option.map fun n => (w.length, n))
      (closing?_word (p := p) (hp w hw).2 hu hv)
    by_cases hwu : w = u
    · subst hwu
      rw [if_pos rfl] at hclosing ⊢
      rw [← hclosing]
      split <;> rfl
    · rw [if_neg hwu] at hclosing ⊢
      rw [← Option.map_none, ← hclosing]
      split <;> rfl
  exact findSome?_eq_ite heach

/-- No word stands at a byte that words do not have. -/
theorem Plain.front?_noWord (hp : p.Plain) {b : UInt8} (hb : Byte.isWord b = false) (rest : Text) :
    p.front? (b :: rest) = none := by
  rw [front?, List.findSome?_eq_none_iff]
  intro w hw
  obtain ⟨hne, hword⟩ := hp w hw
  cases w with
  | nil => exact absurd rfl hne
  | cons a w =>
    have hab : a ≠ b := by
      rintro rfl
      exact absurd (hword a List.mem_cons_self) (by simp [hb])
    simp [List.isPrefixOf, hab]

/-! ## Going through words -/

theorem scan_skip (pos : Nat) (afterWord : Bool) (u : Text) (s : UInt8) (rest : Text) :
    p.scan pos afterWord (u.length + 1) (u ++ s :: rest)
      = p.scan (pos + u.length + 1) (Byte.isWord s) 0 rest := by
  induction u generalizing pos afterWord with
  | nil => rfl
  | cons b u ih =>
    rw [List.cons_append, List.length_cons, scan, ih]
    congr 1
    omega

theorem scan_skip_all (pos : Nat) (afterWord : Bool) (u : Text) :
    p.scan pos afterWord u.length u = none := by
  induction u generalizing pos afterWord with
  | nil => rfl
  | cons b u ih => rw [List.length_cons, scan, ih]

/-- Jumping past a word and what closes it comes to the same as going on behind the word. -/
theorem Plain.scan_jump (hp : p.Plain) {u v : Text} (hv : ∀ b ∈ v.head?, Byte.isWord b = false)
    {n : Nat} (hclosing : p.closing? v = some n) (pos : Nat) (afterWord : Bool) :
    p.scan pos afterWord (u.length + n) (u ++ v) = p.scan (pos + u.length) false 0 v := by
  rcases closing?_cases hclosing with ⟨rfl, -, rfl⟩ | ⟨s, v, rfl, -, rfl⟩
  · rw [Nat.add_zero, List.append_nil, scan_skip_all]
    rfl
  · rw [scan_skip, scan, hp.front?_noWord (hv s rfl)]

/-- Inside a word nothing is found, and the search goes on behind it: where it meets a keyword that
    ends the word, it jumps past what closes it, and else it gets there byte by byte. -/
theorem Plain.scan_inWord (hp : p.Plain) {u v : Text} (hu : ∀ b ∈ u, Byte.isWord b = true)
    (hv : ∀ b ∈ v.head?, Byte.isWord b = false) (pos : Nat) :
    p.scan pos true 0 (u ++ v) = p.scan (pos + u.length) false 0 v := by
  induction u generalizing pos with
  | nil =>
    cases v with
    | nil => rfl
    | cons s v => simp [scan, hp.front?_noWord (hv s rfl)]
  | cons b u ih =>
    have hfront := hp.front?_word hu hv
    have hpos : pos + (b :: u).length = pos + 1 + u.length := by
      rw [List.length_cons]
      omega
    rw [List.cons_append] at hfront ⊢
    rw [scan, hfront, hpos]
    split
    · next word n hsome =>
      -- the end of the word happens to be a keyword, but not one that stands alone
      split at hsome
      · obtain ⟨n', hclosing, hn⟩ := Option.map_eq_some_iff.1 hsome
        obtain ⟨rfl, rfl⟩ := Prod.mk.inj hn
        rw [if_pos rfl, List.length_cons, Nat.add_right_comm, Nat.add_sub_cancel,
          hp.scan_jump hv hclosing]
      · cases hsome
    · rw [hu b List.mem_cons_self, ih fun c hc => hu c (List.mem_cons_of_mem _ hc)]

/-- The search looks at a word as a whole. -/
theorem Plain.scan_word (hp : p.Plain) {u v : Text} (hu : ∀ b ∈ u, Byte.isWord b = true)
    (hv : ∀ b ∈ v.head?, Byte.isWord b = false) (pos : Nat) :
    p.scan pos false 0 (u ++ v)
      = match if u ∈ p.words then p.closing? v else none with
        | some n => some ⟨pos, pos + u.length, pos + u.length + n⟩
        | none => p.scan (pos + u.length) false 0 v := by
  cases u with
  | nil => rw [if_neg fun hmem => (hp [] hmem).1 rfl]; rfl
  | cons b u =>
    have hfront := hp.front?_word hu hv
    have hstep := hp.scan_inWord (fun c hc => hu c (List.mem_cons_of_mem _ hc)) hv (pos + 1)
    have hpos : pos + 1 + u.length = pos + (b :: u).length := by
      rw [List.length_cons]
      omega
    rw [List.cons_append] at hfront ⊢
    rw [scan, hfront, hu b List.mem_cons_self, hstep, hpos]
    by_cases hmem : b :: u ∈ p.words
    · rw [if_pos hmem, if_pos hmem]
      cases p.closing? v <;> rfl
    · rw [if_neg hmem, if_neg hmem]

/-- A word with white space behind it is found, or passed over together with the white space. -/
theorem Plain.scan_spacedWord (hp : p.Plain) {u : Text} {s : UInt8}
    (hu : ∀ b ∈ u, Byte.isWord b = true) (hs : Byte.isSeparator s = true) (pos : Nat)
    (rest : Text) :
    p.scan pos false 0 (u ++ s :: rest)
      = if u ∈ p.words then some ⟨pos, pos + u.length, pos + u.length + 1⟩
        else p.scan (pos + u.length + 1) false 0 rest := by
  have hsword := Byte.isWord_of_isSeparator hs
  rw [hp.scan_word hu (by simpa using hsword)]
  by_cases hmem : u ∈ p.words
  · simp [hmem, closing?, hs]
  · simp [hmem, scan, hp.front?_noWord hsword, hsword]

/-- The search passes over what is no word. -/
theorem Plain.scan_noWord (hp : p.Plain) {u : Text} (hu : ∀ b ∈ u, Byte.isWord b = false)
    (pos : Nat) (rest : Text) :
    p.scan pos false 0 (u ++ rest) = p.scan (pos + u.length) false 0 rest := by
  induction u generalizing pos with
  | nil => rfl
  | cons b u ih =>
    have hb := hu b List.mem_cons_self
    rw [List.cons_append, scan, hp.front?_noWord hb, hb]
    simp only
    rw [ih fun c hc => hu c (List.mem_cons_of_mem _ hc)]
    congr 1
    rw [List.length_cons]
    omega

/-- The search passes over words that are not in the pattern. -/
theorem Plain.scan_spaced (hp : p.Plain) {ws : List Text}
    (hws : ∀ w ∈ ws, w.isHeaderWord = true) (hmiss : ∀ w ∈ ws, w ∉ p.words) (pos : Nat)
    (rest : Text) :
    p.scan pos false 0 (Text.spaced ws ++ rest)
      = p.scan (pos + (Text.spaced ws).length) false 0 rest := by
  induction ws generalizing pos with
  | nil => rfl
  | cons w ws ih =>
    have hw := hws w List.mem_cons_self
    rw [Text.spaced_cons, List.append_assoc, List.cons_append,
      hp.scan_spacedWord (Text.isWord_of_isHeaderWord hw) (by decide),
      if_neg (hmiss w List.mem_cons_self),
      ih (fun v hv => hws v (List.mem_cons_of_mem _ hv))
        (fun v hv => hmiss v (List.mem_cons_of_mem _ hv))]
    congr 1
    simp only [List.length_append, List.length_cons]
    omega

/-! ## What is found -/

/-- Nothing is found where there are no words. -/
theorem Plain.find?_noWord (hp : p.Plain) {t : Text} (ht : ∀ b ∈ t, Byte.isWord b = false) :
    p.find? t = none := by
  have hscan := hp.scan_noWord ht 0 []
  rw [List.append_nil] at hscan
  rw [hp.find?_eq, hscan, scan]

section

variable {indentation : Text} {before : List Text}

/-- Nothing is found among words that are not in the pattern. -/
theorem Plain.find?_spaced (hp : p.Plain) (hi : ∀ b ∈ indentation, Byte.isBlank b = true)
    (hws : ∀ w ∈ before, w.isHeaderWord = true) (hmiss : ∀ w ∈ before, w ∉ p.words) :
    p.find? (indentation ++ Text.spaced before) = none := by
  have hscan := hp.scan_spaced hws hmiss (0 + indentation.length) []
  rw [List.append_nil] at hscan
  rw [hp.find?_eq, hp.scan_noWord fun b hb => Byte.isWord_of_isBlank (hi b hb), hscan, scan]

/-- **The first word that is in the pattern is found.** -/
theorem Plain.find?_word (hp : p.Plain) (hi : ∀ b ∈ indentation, Byte.isBlank b = true)
    (hws : ∀ w ∈ before, w.isHeaderWord = true) (hmiss : ∀ w ∈ before, w ∉ p.words) {w : Text}
    (hw : w ∈ p.words) {s : UInt8} (hs : Byte.isSeparator s = true) (rest : Text) :
    p.find? (indentation ++ Text.spaced before ++ (w ++ s :: rest))
      = some ⟨(indentation ++ Text.spaced before).length,
          (indentation ++ Text.spaced before).length + w.length,
          (indentation ++ Text.spaced before).length + w.length + 1⟩ := by
  obtain ⟨-, hword⟩ := hp w hw
  rw [hp.find?_eq, List.append_assoc,
    hp.scan_noWord fun b hb => Byte.isWord_of_isBlank (hi b hb), hp.scan_spaced hws hmiss,
    hp.scan_spacedWord hword hs, if_pos hw]
  simp [List.length_append]

end

end Keyword.Pattern

end ModifierToggle
