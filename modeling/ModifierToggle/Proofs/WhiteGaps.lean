import ModifierToggle.Proofs.SpreadWords

set_option autoImplicit false

/-! # Words between any white space

Blanks are not all the white space that words are cut at: there are characters of two and three
bytes. All of them are read off wherever they stand, since no character reaches over their first
byte (`Utf8.front?_append`), and so words are cut at them (`Text.IsGap.words_append`). Every text is
a sequence of words with such gaps between them (`Text.exists_apart`). It follows that a word of a
text is a word by itself, and that words written with spaces between them are read back
(`Text.words_join`). -/

namespace ModifierToggle

/-- The Unicode white space characters, one by one. -/
def whiteSpace : List Char :=
  [0x09, 0x0A, 0x0B, 0x0C, 0x0D, 0x20, 0x85, 0xA0, 0x1680, 0x2000, 0x2001, 0x2002, 0x2003, 0x2004,
    0x2005, 0x2006, 0x2007, 0x2008, 0x2009, 0x200A, 0x2028, 0x2029, 0x202F, 0x205F,
    0x3000].map Char.ofNat

theorem mem_whiteSpace {c : Char} (hc : isWhiteSpace c = true) : c ∈ whiteSpace := by
  have hnumber : c.toNat ∈ [0x09, 0x0A, 0x0B, 0x0C, 0x0D, 0x20, 0x85, 0xA0, 0x1680, 0x2000, 0x2001,
      0x2002, 0x2003, 0x2004, 0x2005, 0x2006, 0x2007, 0x2008, 0x2009, 0x200A, 0x2028, 0x2029,
      0x202F, 0x205F, 0x3000] := by
    simp only [isWhiteSpace, Bool.or_eq_true, Bool.and_eq_true, decide_eq_true_eq, beq_iff_eq] at hc
    simp only [List.mem_cons, List.not_mem_nil, or_false]
    omega
  have hmem := List.mem_map_of_mem (f := Char.ofNat) hnumber
  rwa [Char.ofNat_toNat] at hmem

namespace Utf8

/-- A character is read off its own bytes, whatever follows them. -/
theorem front?_take {b : UInt8} {rest : Text} {c : Char} {more : Nat}
    (h : front? b rest = some (c, more)) (v : Text) :
    front? b (rest.take more ++ v) = some (c, more) := by
  -- The number of further bytes says which form the character has.
  rcases more with _ | _ | _ | _ | more
  · unfold front? at h ⊢
    grind
  · rcases rest with _ | ⟨d, rest⟩ <;> simp [front?] at h ⊢
    grind
  · rcases rest with _ | ⟨d, _ | ⟨e, rest⟩⟩ <;> simp [front?] at h ⊢ <;> grind
  · rcases rest with _ | ⟨d, _ | ⟨e, _ | ⟨f, rest⟩⟩⟩ <;> simp [front?] at h ⊢ <;> grind
  · unfold front? at h
    grind

/-- All but the first byte of a character continue it, -/
theorem isContinuation_of_front? {b : UInt8} {rest : Text} {c : Char} {more : Nat}
    (h : front? b rest = some (c, more)) : ∀ d ∈ rest.take more, isContinuation d = true := by
  rcases more with _ | _ | _ | _ | more
  · simp
  · rcases rest with _ | ⟨d, rest⟩ <;> simp [front?] at h ⊢
    grind
  · rcases rest with _ | ⟨d, _ | ⟨e, rest⟩⟩ <;> simp [front?] at h ⊢ <;> grind
  · rcases rest with _ | ⟨d, _ | ⟨e, _ | ⟨f, rest⟩⟩⟩ <;> simp [front?] at h ⊢ <;> grind
  · unfold front? at h
    grind

/-- and a byte that continues a character starts none. -/
theorem front?_continuation {b : UInt8} (hb : isContinuation b = true) (rest : Text) :
    front? b rest = none := by
  have hb := toNat_isContinuation hb
  have hlead : ∀ {low high : UInt8}, 0xC0 ≤ low.toNat →
      ¬ (decide (low ≤ b) && decide (b ≤ high)) = true := by
    intro low high hlow
    simp only [Bool.and_eq_true, decide_eq_true_eq, UInt8.le_iff_toNat_le]
    omega
  have hascii : ¬ b < 0x80 := by
    rw [UInt8.lt_iff_toNat_lt]
    exact Nat.not_lt.2 hb.1
  unfold front?
  rw [if_neg hascii, if_neg (hlead (by decide)), if_neg (hlead (by decide)),
    if_neg (hlead (by decide))]

theorem piecesAfter_eq_pieces (skip : Nat) (t : Text) :
    piecesAfter skip t = Text.pieces (t.drop skip) := by
  induction t generalizing skip with
  | nil => cases skip <;> rfl
  | cons b t ih =>
    cases skip with
    | zero => rfl
    | succ skip => exact ih skip

/-- The bytes of a white space character. -/
theorem encode_white {c : Char} (hc : isWhiteSpace c = true) :
    ∃ b rest, encode c = b :: rest ∧ front? b rest = some (c, rest.length) ∧
      isContinuation b = false := by
  have hall : whiteSpace.all (fun c => (encode c).head?.any fun b =>
      front? b (encode c).tail == some (c, (encode c).tail.length) && !isContinuation b)
        = true := by decide
  have hchar := List.all_eq_true.1 hall c (mem_whiteSpace hc)
  obtain ⟨b, hb, hchar⟩ := (Option.any_eq_true _ _).1 hchar
  obtain ⟨hfront, hcont⟩ := Bool.and_eq_true_iff.1 hchar
  exact ⟨b, (encode c).tail, List.eq_cons_of_mem_head? hb, eq_of_beq hfront, by simpa using hcont⟩

theorem ne_slash_star_of_white {c : Char} (hc : isWhiteSpace c = true) :
    ∀ b ∈ encode c, b ≠ Byte.slash ∧ b ≠ Byte.star := by
  have hall : whiteSpace.all (fun c => (encode c).all fun b => b != Byte.slash && b != Byte.star)
      = true := by decide
  intro b hb
  simpa using List.all_eq_true.1 (List.all_eq_true.1 hall c (mem_whiteSpace hc)) b hb

end Utf8

namespace Text

theorem pieces_cons_char {b : UInt8} {rest : Text} {c : Char} {more : Nat}
    (h : Utf8.front? b rest = some (c, more)) :
    pieces (b :: rest) = .char c :: pieces (rest.drop more) := by
  rw [pieces, Utf8.piecesAfter, h, ← Utf8.piecesAfter_eq_pieces]

theorem pieces_cons_stray {b : UInt8} {rest : Text} (h : Utf8.front? b rest = none) :
    pieces (b :: rest) = .stray b :: pieces rest := by
  rw [pieces, Utf8.piecesAfter, h]
  rfl

theorem pieces_white {c : Char} (hc : isWhiteSpace c = true) (u v : Text) :
    pieces (u ++ (Utf8.encode c ++ v)) = pieces u ++ .char c :: pieces v := by
  obtain ⟨b, rest, hbytes, hfront, hcont⟩ := Utf8.encode_white hc
  have hchar := Utf8.front?_take hfront v
  rw [List.take_length] at hchar
  have hread : pieces (b :: (rest ++ v)) = .char c :: pieces v := by
    rw [pieces_cons_char hchar, List.drop_left]
  rw [hbytes, List.cons_append, ← hread]
  exact Utf8.piecesAfter_append hcont (Nat.zero_le u.length) (rest ++ v)

/-! ## Gaps -/

/-- There is nothing but white space in the text. -/
def IsGap (g : Text) : Prop := ∃ cs : List Char, (∀ c ∈ cs, isWhiteSpace c = true) ∧ g = ofChars cs

theorem IsGap.nil : IsGap [] := ⟨[], by simp, rfl⟩

theorem IsGap.cons {c : Char} (hc : isWhiteSpace c = true) {g : Text} (hg : IsGap g) :
    IsGap (Utf8.encode c ++ g) := by
  obtain ⟨cs, hcs, rfl⟩ := hg
  exact ⟨c :: cs, List.forall_mem_cons.2 ⟨hc, hcs⟩, List.flatMap_cons.symm⟩

theorem isGap_blanks {g : Text} (hg : ∀ b ∈ g, Byte.isBlank b = true) : IsGap g := by
  induction g with
  | nil => exact .nil
  | cons b g ih =>
    have hrest := ih fun c hc => hg c (List.mem_cons_of_mem _ hc)
    have hb := hg b List.mem_cons_self
    simp only [Byte.isBlank, Bool.or_eq_true, beq_iff_eq] at hb
    rcases hb with rfl | rfl
    · exact .cons (c := ' ') rfl hrest
    · exact .cons (c := '\t') rfl hrest

theorem IsGap.clear {g : Text} (hg : IsGap g) : ∀ b ∈ g, b ≠ Byte.slash ∧ b ≠ Byte.star := by
  obtain ⟨cs, hcs, rfl⟩ := hg
  intro b hb
  obtain ⟨c, hc, hb⟩ := List.mem_flatMap.1 hb
  exact Utf8.ne_slash_star_of_white (hcs c hc) b hb

/-- **Words are cut at every white space.** -/
theorem words_white {c : Char} (hc : isWhiteSpace c = true) (u v : Text) :
    words (u ++ (Utf8.encode c ++ v)) = words u ++ words v := by
  rw [words, pieces_white hc, wordsFrom_append (p := .char c) hc]
  rfl

theorem IsGap.words_front {g : Text} (hg : IsGap g) (v : Text) : words (g ++ v) = words v := by
  obtain ⟨cs, hcs, rfl⟩ := hg
  induction cs with
  | nil => rfl
  | cons c cs ih =>
    have hc := words_white (hcs c List.mem_cons_self) [] (ofChars cs ++ v)
    rw [ofChars, List.flatMap_cons, List.append_assoc]
    exact hc.trans (ih fun c hc => hcs c (List.mem_cons_of_mem _ hc))

theorem IsGap.words_append {g : Text} (hg : IsGap g) (hne : g ≠ []) (u v : Text) :
    words (u ++ (g ++ v)) = words u ++ words v := by
  obtain ⟨cs, hcs, rfl⟩ := hg
  cases cs with
  | nil => exact absurd rfl hne
  | cons c cs =>
    have hrest : IsGap (ofChars cs) := ⟨cs, fun c hc => hcs c (List.mem_cons_of_mem _ hc), rfl⟩
    rw [ofChars, List.flatMap_cons, List.append_assoc, words_white (hcs c List.mem_cons_self)]
    exact congrArg _ (hrest.words_front v)

theorem IsGap.words_behind {g : Text} (hg : IsGap g) (u : Text) : words (u ++ g) = words u := by
  by_cases hne : g = []
  · rw [hne, List.append_nil]
  · have hcut := hg.words_append hne u []
    rw [List.append_nil] at hcut
    exact hcut.trans (List.append_nil _)

/-! ## Unbroken texts -/

/-- There is no white space in the text. -/
def IsUnbroken (w : Text) : Prop := ∀ p ∈ w.pieces, p.isWhite = false

theorem wordsFrom_unbroken {ps : List Piece} (hps : ∀ p ∈ ps, p.isWhite = false)
    (word : List Piece) (hne : word ≠ [] ∨ ps ≠ []) :
    wordsFrom word ps = [ofPieces (word.reverse ++ ps)] := by
  induction ps generalizing word with
  | nil =>
    have hword : word ≠ [] := hne.resolve_right fun h => h rfl
    simp [wordsFrom, hword]
  | cons p ps ih =>
    have hp := hps p List.mem_cons_self
    have hrest := ih (fun q hq => hps q (List.mem_cons_of_mem _ hq)) (p :: word) (by simp)
    rw [wordsFrom, if_neg (by simp [hp]), hrest]
    simp

theorem pieces_ne_nil {t : Text} (hne : t ≠ []) : t.pieces ≠ [] := by
  intro hnil
  have htext := ofPieces_pieces t
  rw [hnil] at htext
  exact hne htext.symm

theorem IsUnbroken.words_eq {w : Text} (hw : IsUnbroken w) (hne : w ≠ []) : w.words = [w] := by
  rw [words, wordsFrom_unbroken hw [] (Or.inr (pieces_ne_nil hne)), List.reverse_nil,
    List.nil_append, ofPieces_pieces]

theorem pieces_continuations {u : Text} (hu : ∀ b ∈ u, Utf8.isContinuation b = true) (v : Text) :
    pieces (u ++ v) = u.map Piece.stray ++ pieces v := by
  induction u with
  | nil => rfl
  | cons b u ih =>
    have hb := Utf8.front?_continuation (hu b List.mem_cons_self) (u ++ v)
    rw [List.cons_append, pieces_cons_stray hb, ih fun c hc => hu c (List.mem_cons_of_mem _ hc)]
    rfl

/-- What follows the first byte of an unbroken text is unbroken, though a character may be cut
    there: its other bytes are stray ones then. -/
theorem IsUnbroken.tail {b : UInt8} {t : Text} (h : IsUnbroken (b :: t)) : IsUnbroken t := by
  cases hfront : Utf8.front? b t with
  | none =>
    rw [IsUnbroken, pieces_cons_stray hfront] at h
    exact fun p hp => h p (List.mem_cons_of_mem _ hp)
  | some found =>
    obtain ⟨c, more⟩ := found
    rw [IsUnbroken, pieces_cons_char hfront] at h
    have hcut := pieces_continuations (Utf8.isContinuation_of_front? hfront) (t.drop more)
    rw [List.take_append_drop] at hcut
    intro p hp
    rw [hcut, List.mem_append, List.mem_map] at hp
    rcases hp with ⟨d, -, rfl⟩ | hp
    · rfl
    · exact h p (List.mem_cons_of_mem _ hp)

theorem IsUnbroken.suffix {u v : Text} (h : IsUnbroken (u ++ v)) : IsUnbroken v := by
  induction u with
  | nil => exact h
  | cons b u ih => exact ih h.tail

theorem IsUnbroken.before_ascii {u v : Text} {s : UInt8} (hs : s.toNat < 0x80)
    (h : IsUnbroken (u ++ s :: v)) : IsUnbroken u := by
  intro p hp
  exact h p (by rw [pieces_append hs]; exact List.mem_append_left _ hp)

/-! ## A text as words and gaps -/

/-- A text is cut at a white space character that is read off it. -/
theorem exists_cut {t : Text} {ps qs : List Piece} {c : Char} (hc : isWhiteSpace c = true)
    (h : t.pieces = ps ++ .char c :: qs) :
    ∃ u v, t = u ++ (Utf8.encode c ++ v) ∧ u.pieces = ps := by
  induction ps generalizing t with
  | nil =>
    have htext := ofPieces_pieces t
    rw [h, List.nil_append] at htext
    exact ⟨[], ofPieces qs, htext.symm, rfl⟩
  | cons p ps ih =>
    cases t with
    | nil => cases h
    | cons b t =>
      cases hfront : Utf8.front? b t with
      | none =>
        rw [pieces_cons_stray hfront] at h
        obtain ⟨rfl, hrest⟩ := List.cons.inj h
        obtain ⟨u, v, rfl, hu⟩ := ih hrest
        -- A byte that is stray before the white space is stray without it.
        obtain ⟨d, more, hbytes, -, hcont⟩ := Utf8.encode_white hc
        rw [hbytes, List.cons_append, Utf8.front?_append hcont] at hfront
        exact ⟨b :: u, v, rfl, by rw [pieces_cons_stray hfront, hu]⟩
      | some found =>
        obtain ⟨d, more⟩ := found
        rw [pieces_cons_char hfront] at h
        obtain ⟨rfl, hrest⟩ := List.cons.inj h
        obtain ⟨u, v, htext, hu⟩ := ih hrest
        refine ⟨b :: (t.take more ++ u), v, ?_, ?_⟩
        · rw [List.cons_append, List.append_assoc, ← htext, List.take_append_drop]
        · have hlength : (t.take more).length = more :=
            List.length_take_of_le (Utf8.front?_le hfront)
          rw [pieces_cons_char (Utf8.front?_take hfront u), List.drop_left' hlength, hu]

/-- The words stand in the text in turn, with white space between them. -/
inductive Apart : List Text → Text → Prop
  | nil : Apart [] []
  | last {w : Text} : w ≠ [] → IsUnbroken w → Apart [w] w
  | cons {w gap run : Text} {ws : List Text} : w ≠ [] → IsUnbroken w → IsGap gap → gap ≠ [] →
      Apart ws run → Apart (w :: ws) (w ++ (gap ++ run))

theorem Apart.unbroken {ws : List Text} {run : Text} (h : Apart ws run) :
    ∀ w ∈ ws, w ≠ [] ∧ IsUnbroken w := by
  induction h with
  | nil => simp
  | last hne hw => simpa using ⟨hne, hw⟩
  | cons hne hw _ _ _ ih =>
    rintro v (_ | ⟨_, hv⟩)
    · exact ⟨hne, hw⟩
    · exact ih v hv

theorem exists_whitePiece {t : Text} (h : ¬ IsUnbroken t) :
    ∃ ps c qs, t.pieces = ps ++ .char c :: qs ∧ isWhiteSpace c = true ∧
      ∀ p ∈ ps, p.isWhite = false := by
  cases hfind : t.pieces.find? Piece.isWhite with
  | none => exact absurd (fun p hp => by simpa using List.find?_eq_none.1 hfind p hp) h
  | some p =>
    obtain ⟨hp, ps, qs, hpieces, hps⟩ := List.find?_eq_some_iff_append.1 hfind
    cases p with
    | stray b => cases hp
    | char c => exact ⟨ps, c, qs, hpieces, hp, fun q hq => by simpa using hps q hq⟩

/-- **A text is its words with white space between them,** and perhaps before and after them. -/
theorem exists_apart (t : Text) : ∃ gap run, t = gap ++ run ∧ IsGap gap ∧ Apart t.words run := by
  induction h : t.length using Nat.strongRecOn generalizing t with
  | ind n ih =>
    by_cases hwhole : IsUnbroken t
    · by_cases hne : t = []
      · subst hne
        exact ⟨[], [], rfl, .nil, .nil⟩
      · rw [hwhole.words_eq hne]
        exact ⟨[], t, rfl, .nil, .last hne hwhole⟩
    · obtain ⟨ps, c, qs, hpieces, hc, hps⟩ := exists_whitePiece hwhole
      obtain ⟨u, v, rfl, hu⟩ := exists_cut hc hpieces
      obtain ⟨b, more, hbytes, -, -⟩ := Utf8.encode_white hc
      have hshort : v.length < n := by
        rw [← h, hbytes]
        simp only [List.length_append, List.length_cons]
        omega
      obtain ⟨gap, run, rfl, hgap, hrun⟩ := ih v.length hshort v rfl
      have hunbroken : IsUnbroken u := fun p hp => hps p (hu ▸ hp)
      rw [words_white hc]
      by_cases hne : u = []
      · subst hne
        exact ⟨Utf8.encode c ++ gap, run, by simp, .cons hc hgap, hrun⟩
      · rw [hunbroken.words_eq hne]
        refine ⟨[], _, rfl, .nil, ?_⟩
        rw [← List.append_assoc (Utf8.encode c)]
        exact .cons hne hunbroken (.cons hc hgap) (by simp [hbytes]) hrun

/-- A word of a text is a word by itself. -/
theorem words_of_mem_words {w t : Text} (hw : w ∈ t.words) : w.words = [w] := by
  obtain ⟨gap, run, -, -, hrun⟩ := t.exists_apart
  obtain ⟨hne, hunbroken⟩ := hrun.unbroken w hw
  exact hunbroken.words_eq hne

/-- **Words with spaces between them are read back.** -/
theorem words_join {ws : List Text} (hws : ∀ w ∈ ws, w.words = [w]) :
    (join [Byte.space] ws).words = ws := by
  induction ws with
  | nil => rfl
  | cons w ws ih =>
    have hw := hws w List.mem_cons_self
    cases ws with
    | nil => exact hw
    | cons next rest =>
      have hrest := ih fun v hv => hws v (List.mem_cons_of_mem _ hv)
      rw [join, List.append_assoc, List.singleton_append, words_append_white (by decide), hw, hrest]
      rfl

theorem standing_join (ws : List Text) :
    (join [Byte.space] ws).standing = ws.flatMap fun w => w.standing := by
  induction ws with
  | nil => rfl
  | cons w ws ih =>
    cases ws with
    | nil => simp [join]
    | cons next rest =>
      rw [join, List.append_assoc, List.singleton_append,
        standing_append_closed w (closesWord_space _) (by simp), standing_separator (by decide), ih]
      rfl

end Text

end ModifierToggle
