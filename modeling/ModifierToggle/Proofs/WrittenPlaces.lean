import ModifierToggle.Buffer.Place
import ModifierToggle.Proofs.WhiteGaps

set_option autoImplicit false

/-! # Places as they are written

A place is written as two numbers that count from one, with a colon between them. Reading takes more
than writing gives: white space around the place, signs, leading zeros, and a line without a column.
`Place.Written` says what a place may look like, digit by digit, and reading accepts exactly that
(`Place.parse_eq_ok_iff`). Numbers end where a signed 64 bit word ends, so that no place wraps
around on the way. -/

namespace ModifierToggle

namespace Decimal

/-! ## Numbers -/

/-- The number that a sequence of digits stands for, of which there is at least one. -/
inductive Numeral : Text → Nat → Prop where
  | digit {d : UInt8} (hd : Byte.isDigit d = true) : Numeral [d] (digitValue d)
  | behind {ds : Text} {n : Nat} {d : UInt8} (hds : Numeral ds n) (hd : Byte.isDigit d = true) :
      Numeral (ds ++ [d]) (10 * n + digitValue d)

/-- The number that digits with or without a sign in front stand for. -/
inductive SignedNumeral : Text → Int → Prop where
  | unsigned {ds : Text} {n : Nat} (hds : Numeral ds n) : SignedNumeral ds n
  | plus {ds : Text} {n : Nat} (hds : Numeral ds n) : SignedNumeral (0x2B :: ds) n
  | minus {ds : Text} {n : Nat} (hds : Numeral ds n) : SignedNumeral (Byte.minus :: ds) (-n)

theorem isDigit_of_numeral {ds : Text} {n : Nat} (h : Numeral ds n) :
    ∀ d ∈ ds, Byte.isDigit d = true := by
  induction h with
  | digit hd => simpa using hd
  | behind _ hd ih =>
    intro b hb
    rcases List.mem_append.1 hb with hb | hb
    · exact ih b hb
    · rw [List.mem_singleton.1 hb]
      exact hd

theorem value_append (ds : Text) (d : UInt8) :
    value (ds ++ [d]) = 10 * value ds + digitValue d := by
  rw [value, List.foldl_append, Nat.mul_comm]
  rfl

theorem toNat?_eq_some {ds : Text} {n : Nat} :
    toNat? ds = some n ↔ (ds ≠ [] ∧ ∀ d ∈ ds, Byte.isDigit d = true) ∧ value ds = n := by
  simp [toNat?]

/-- Digits stand for the number that is read off them. -/
theorem toNat?_eq_some_iff {ds : Text} {n : Nat} : toNat? ds = some n ↔ Numeral ds n := by
  rw [toNat?_eq_some]
  constructor
  · rintro ⟨⟨hne, hdigits⟩, rfl⟩
    induction ds using List.reverseRecOn with
    | nil => exact absurd rfl hne
    | append_singleton ds d ih =>
      have hd : Byte.isDigit d = true := hdigits d (by simp)
      by_cases hnil : ds = []
      · subst hnil
        simpa [value] using Numeral.digit hd
      · rw [value_append]
        exact .behind (ih hnil fun b hb => hdigits b (List.mem_append_left _ hb)) hd
  · intro h
    refine ⟨⟨by cases h <;> simp, isDigit_of_numeral h⟩, ?_⟩
    induction h with
    | digit _ => simp [value]
    | behind _ _ ih => rw [value_append, ih]

theorem isDigit_digit : ∀ n < 10, Byte.isDigit (digit n) = true := by decide

theorem digitValue_digit : ∀ n < 10, digitValue (digit n) = n := by decide

/-- What is written for a number stands for it. -/
theorem numeral_ofNat (n : Nat) : Numeral (ofNat n) n := by
  fun_induction ofNat n with
  | case1 n hn =>
    have hdigit := Numeral.digit (isDigit_digit n hn)
    rwa [digitValue_digit n hn] at hdigit
  | case2 n hn ih =>
    have hlast : n % 10 < 10 := Nat.mod_lt _ (by omega)
    have hbehind := ih.behind (isDigit_digit _ hlast)
    rwa [digitValue_digit _ hlast, Nat.div_add_mod] at hbehind

theorem signedNumeral_ofInt (n : Int) : SignedNumeral (ofInt n) n := by
  cases n with
  | ofNat n => exact .unsigned (numeral_ofNat n)
  | negSucc n => exact .minus (numeral_ofNat (n + 1))

/-- The signs, the digits and nothing else stand in a number. -/
theorem mem_of_signedNumeral {t : Text} {n : Int} (h : SignedNumeral t n) :
    ∀ b ∈ t, b = 0x2B ∨ b = Byte.minus ∨ Byte.isDigit b = true := by
  intro b hb
  cases h with
  | unsigned hds => exact .inr (.inr (isDigit_of_numeral hds b hb))
  | plus hds =>
    rcases List.mem_cons.1 hb with hb | hb
    · exact .inl hb
    · exact .inr (.inr (isDigit_of_numeral hds b hb))
  | minus hds =>
    rcases List.mem_cons.1 hb with hb | hb
    · exact .inr (.inl hb)
    · exact .inr (.inr (isDigit_of_numeral hds b hb))

/-- A number is read off a text exactly if it is written there and fits a word. -/
theorem toInt?_eq_some_iff {t : Text} {n : Int} :
    toInt? t = some n ↔ SignedNumeral t n ∧ inWord n = true := by
  unfold toInt?
  rw [Option.filter_eq_some_iff]
  refine and_congr_left fun _ => ?_
  constructor
  · intro h
    split at h
    · next digits =>
      obtain ⟨m, hm, rfl⟩ : ∃ m : Nat, toNat? digits = some m ∧ -(m : Int) = n := by
        simpa [Option.bind_eq_some_iff] using h
      exact .minus (toNat?_eq_some_iff.1 hm)
    · next digits =>
      obtain ⟨m, hm, rfl⟩ : ∃ m : Nat, toNat? digits = some m ∧ (m : Int) = n := by
        simpa [Option.bind_eq_some_iff] using h
      exact .plus (toNat?_eq_some_iff.1 hm)
    · obtain ⟨m, hm, rfl⟩ : ∃ m : Nat, toNat? t = some m ∧ (m : Int) = n := by
        simpa [Option.bind_eq_some_iff] using h
      exact .unsigned (toNat?_eq_some_iff.1 hm)
  · intro h
    cases h with
    | unsigned hds =>
      -- A sign is no digit, so the first byte is not taken for one.
      have hdigits := isDigit_of_numeral hds
      split
      · exact absurd (hdigits _ List.mem_cons_self) (by decide)
      · exact absurd (hdigits _ List.mem_cons_self) (by decide)
      · simp [toNat?_eq_some_iff.2 hds]
    | plus hds => simp [toNat?_eq_some_iff.2 hds]
    | minus hds => simp [toNat?_eq_some_iff.2 hds]

end Decimal

namespace Text

/-! ## White space around a text -/

theorem isGap_of_white {ps : List Piece} (h : ∀ p ∈ ps, p.isWhite = true) :
    IsGap (ofPieces ps) := by
  induction ps with
  | nil => exact .nil
  | cons p ps ih =>
    obtain ⟨hp, hps⟩ := List.forall_mem_cons.1 h
    cases p with
    | stray b => cases hp
    | char c => exact .cons hp (ih hps)

/-- A text is what is left of it by trimming, with white space in front and behind. -/
theorem exists_gaps_around (t : Text) :
    ∃ front back, IsGap front ∧ IsGap back ∧ t = front ++ t.trim ++ back := by
  let rest := (t.pieces.dropWhile Piece.isWhite).reverse
  refine ⟨ofPieces (t.pieces.takeWhile Piece.isWhite),
    ofPieces (rest.takeWhile Piece.isWhite).reverse, isGap_of_white ?_, isGap_of_white ?_, ?_⟩
  · exact List.all_eq_true.1 List.all_takeWhile
  · exact fun p hp => List.all_eq_true.1 List.all_takeWhile p (List.mem_reverse.1 hp)
  · have hrest : t.pieces.dropWhile Piece.isWhite
        = (rest.dropWhile Piece.isWhite).reverse ++ (rest.takeWhile Piece.isWhite).reverse := by
      rw [← List.reverse_append, List.takeWhile_append_dropWhile, List.reverse_reverse]
    have hpieces : t.pieces = t.pieces.takeWhile Piece.isWhite
        ++ ((rest.dropWhile Piece.isWhite).reverse ++ (rest.takeWhile Piece.isWhite).reverse) := by
      rw [← hrest, List.takeWhile_append_dropWhile]
    have htext := congrArg ofPieces hpieces
    simp only [ofPieces, List.flatMap_append, ← List.append_assoc] at htext
    exact (ofPieces_pieces t).symm.trans htext

theorem pieces_gap_append {cs : List Char} (hcs : ∀ c ∈ cs, isWhiteSpace c = true) (v : Text) :
    pieces (ofChars cs ++ v) = cs.map Piece.char ++ pieces v := by
  induction cs with
  | nil => rfl
  | cons c cs ih =>
    obtain ⟨hc, hcs⟩ := List.forall_mem_cons.1 hcs
    have hfirst := pieces_white hc [] (ofChars cs ++ v)
    rw [ih hcs] at hfirst
    rw [ofChars, List.flatMap_cons, List.append_assoc]
    exact hfirst

theorem pieces_append_gap {cs : List Char} (hcs : ∀ c ∈ cs, isWhiteSpace c = true) (u : Text) :
    pieces (u ++ ofChars cs) = pieces u ++ cs.map Piece.char := by
  cases cs with
  | nil => simp [ofChars]
  | cons c cs =>
    obtain ⟨hc, hcs⟩ := List.forall_mem_cons.1 hcs
    have hrest := pieces_gap_append hcs []
    rw [List.append_nil] at hrest
    rw [ofChars, List.flatMap_cons, pieces_white hc]
    exact congrArg (pieces u ++ .char c :: ·) (by simpa [pieces, Utf8.piecesAfter] using hrest)

/-- Trimming takes away the white space around a text that has none. -/
theorem trim_gaps {front u back : Text} (hfront : IsGap front) (hu : IsUnbroken u) (hne : u ≠ [])
    (hback : IsGap back) : trim (front ++ u ++ back) = u := by
  obtain ⟨cs, hcs, rfl⟩ := hfront
  obtain ⟨ds, hds, rfl⟩ := hback
  have hkeep : ∀ ps rest : List Piece, ps ≠ [] → (∀ p ∈ ps, p.isWhite = false) →
      (ps ++ rest).dropWhile Piece.isWhite = ps ++ rest := by
    intro ps rest hps hall
    cases ps with
    | nil => exact absurd rfl hps
    | cons p ps => simp [hall p List.mem_cons_self]
  have hpieces := pieces_ne_nil hne
  rw [trim, List.append_assoc, pieces_gap_append hcs, pieces_append_gap hds,
    List.dropWhile_append_of_pos (by simpa [Piece.isWhite] using hcs), hkeep _ _ hpieces hu,
    List.reverse_append, List.dropWhile_append_of_pos (by simpa [Piece.isWhite] using hds),
    ← List.append_nil u.pieces.reverse,
    hkeep _ _ (by simpa using hpieces) fun p hp => hu p (List.mem_reverse.1 hp)]
  simpa using ofPieces_pieces u

/-- There is no white space among visible ASCII signs. -/
theorem isUnbroken_of_visible {u : Text} (hu : ∀ b ∈ u, 0x20 < b.toNat ∧ b.toNat < 0x80) :
    IsUnbroken u := by
  induction u with
  | nil => intro p hp; cases hp
  | cons b u ih =>
    obtain ⟨hb, hu⟩ := List.forall_mem_cons.1 hu
    intro p hp
    rw [pieces_cons_ascii hb.2] at hp
    rcases List.mem_cons.1 hp with rfl | hp
    · simp only [asciiPiece, Piece.isWhite, isWhiteSpace, toNat_ofNat_ascii hb.2]
      simp
      omega
    · exact ih hu p hp

/-! ## Cutting a text -/

theorem findByte?_eq_none {b : UInt8} {t : Text} (h : b ∉ t) : findByte? b t = none :=
  List.findIdx?_eq_none_iff.2 fun c hc => by simpa using fun hcb : c = b => h (hcb ▸ hc)

theorem cut?_eq_none {b : UInt8} {t : Text} (h : b ∉ t) : cut? b t = none := by
  rw [cut?, findByte?_eq_none h, Option.map_none]

theorem cut?_append {b : UInt8} {u : Text} (h : b ∉ u) (v : Text) :
    cut? b (u ++ b :: v) = some (u, v) := by
  have hfound : findByte? b (u ++ b :: v) = some u.length := by
    have hfront : u.findIdx? (· == b) = none := findByte?_eq_none h
    rw [findByte?, List.findIdx?_append, hfront, List.findIdx?_cons]
    simp
  rw [cut?, hfound]
  simp

theorem eq_append_of_cut? {b : UInt8} {t u v : Text} (h : cut? b t = some (u, v)) :
    t = u ++ b :: v := by
  by_cases hb : b ∈ t
  · obtain ⟨u', v', rfl, hu'⟩ := List.eq_append_cons_of_mem hb
    rw [cut?_append hu'] at h
    cases h
    rfl
  · rw [cut?_eq_none hb] at h
    cases h

end Text

namespace Place

/-! ## Writing and reading a place -/

/-- The largest number of a signed 64 bit word: two to the power of 63, less one. -/
def lastNumber : Int := 0x7FFFFFFFFFFFFFFF

/-- Counted from one, both numbers of the place are numbers of a word. -/
structure InReach (p : Place) : Prop where
  line : 0 ≤ p.line ∧ p.line < lastNumber
  column : 0 ≤ p.column ∧ p.column < lastNumber

/-- The text is a number from one up to the largest one, and `k` is that number counted from
    zero. -/
structure Ordinal (t : Text) (k : Int) : Prop where
  numeral : Decimal.SignedNumeral t (k + 1)
  least : 1 ≤ k + 1
  most : k + 1 ≤ lastNumber

/-- What a place may look like: a line alone, which has the first column, or a line and a column. -/
inductive Written : Text → Place → Prop where
  | line {t : Text} {n : Int} (ht : Ordinal t n) : Written t ⟨n, 0⟩
  | column {t u : Text} {n c : Int} (ht : Ordinal t n) (hu : Ordinal u c) :
      Written (t ++ Byte.colon :: u) ⟨n, c⟩

theorem inWord_iff {n : Int} :
    Decimal.inWord n = true ↔ -9223372036854775808 ≤ n ∧ n ≤ lastNumber := by
  simp [Decimal.inWord, lastNumber]

theorem ordinal?_eq_some_iff {t : Text} {k : Int} : ordinal? t = some k ↔ Ordinal t k := by
  rw [ordinal?, Option.bind_eq_some_iff]
  constructor
  · rintro ⟨n, hn, h⟩
    obtain ⟨hnumeral, hword⟩ := Decimal.toInt?_eq_some_iff.1 hn
    split at h
    · next hpos =>
      cases h
      rw [← Int.sub_add_cancel n 1] at hnumeral hpos hword
      exact ⟨hnumeral, hpos, (inWord_iff.1 hword).2⟩
    · cases h
  · intro h
    have hword : Decimal.inWord (k + 1) = true :=
      inWord_iff.2 ⟨by have := h.least; omega, h.most⟩
    exact ⟨k + 1, Decimal.toInt?_eq_some_iff.2 ⟨h.numeral, hword⟩, by simp [h.least]⟩

theorem ordinal_one : Ordinal (utf8 "1") 0 := ordinal?_eq_some_iff.1 (by decide)

/-- No colon stands in a number, and nothing in it is white. -/
theorem visible_of_ordinal {t : Text} {k : Int} (h : Ordinal t k) :
    ∀ b ∈ t, b ≠ Byte.colon ∧ 0x20 < b.toNat ∧ b.toNat < 0x80 := by
  intro b hb
  rcases Decimal.mem_of_signedNumeral h.numeral b hb with rfl | rfl | hdigit
  · decide
  · decide
  · have hword : Byte.isWord b = true :=
      Byte.isWord_of_isPlainWord (by simp [Byte.isPlainWord, hdigit])
    have hrange := Byte.toNat_of_isWord hword
    refine ⟨?_, by omega, by omega⟩
    rintro rfl
    cases hdigit

theorem parse_eq_ok_of_parts {t line column : Text} {p : Place}
    (hparts : (t.trim.cut? Byte.colon).getD (t.trim, utf8 "1") = (line, column)) :
    parse t = .ok p ↔ Ordinal line p.line ∧ Ordinal column p.column := by
  simp only [parse, hparts, ← ordinal?_eq_some_iff]
  cases p
  cases ordinal? line <;> cases ordinal? column <;> simp

/-- Reading accepts what a place may look like once white space is trimmed. -/
theorem parse_eq_ok_iff {t : Text} {p : Place} : parse t = .ok p ↔ Written t.trim p := by
  constructor
  · intro h
    cases hcut : t.trim.cut? Byte.colon with
    | none =>
      have hparts : (t.trim.cut? Byte.colon).getD (t.trim, utf8 "1") = (t.trim, utf8 "1") := by
        rw [hcut]
        rfl
      obtain ⟨hline, hcolumn⟩ := (parse_eq_ok_of_parts hparts).1 h
      have hfirst : p.column = 0 :=
        Option.some.inj <| (ordinal?_eq_some_iff.2 hcolumn).symm.trans
          (ordinal?_eq_some_iff.2 ordinal_one)
      have hwritten := Written.line hline
      rwa [← hfirst] at hwritten
    | some parts =>
      have hparts : (t.trim.cut? Byte.colon).getD (t.trim, utf8 "1") = parts := by
        rw [hcut]
        rfl
      obtain ⟨hline, hcolumn⟩ := (parse_eq_ok_of_parts hparts).1 h
      rw [Text.eq_append_of_cut? hcut]
      exact .column hline hcolumn
  · intro h
    generalize htrim : t.trim = u at h
    cases h with
    | line hu =>
      have hcolon : Byte.colon ∉ u := fun hmem => (visible_of_ordinal hu _ hmem).1 rfl
      have hparts : (t.trim.cut? Byte.colon).getD (t.trim, utf8 "1") = (u, utf8 "1") := by
        rw [htrim, Text.cut?_eq_none hcolon]
        rfl
      exact (parse_eq_ok_of_parts hparts).2 ⟨hu, ordinal_one⟩
    | @column line column _ _ hline hcolumn =>
      have hcolon : Byte.colon ∉ line := fun hmem => (visible_of_ordinal hline _ hmem).1 rfl
      have hparts : (t.trim.cut? Byte.colon).getD (t.trim, utf8 "1") = (line, column) := by
        rw [htrim, Text.cut?_append hcolon]
        rfl
      exact (parse_eq_ok_of_parts hparts).2 ⟨hline, hcolumn⟩

theorem isUnbroken_of_written {u : Text} {p : Place} (h : Written u p) : u.IsUnbroken := by
  apply Text.isUnbroken_of_visible
  intro b hb
  cases h with
  | line ht => exact (visible_of_ordinal ht b hb).2
  | column ht hu =>
    rcases List.mem_append.1 hb with hb | hb
    · exact (visible_of_ordinal ht b hb).2
    · rcases List.mem_cons.1 hb with rfl | hb
      · decide
      · exact (visible_of_ordinal hu b hb).2

theorem ne_nil_of_ordinal {t : Text} {k : Int} (h : Ordinal t k) : t ≠ [] := by
  rintro rfl
  cases ordinal?_eq_some_iff.2 h

theorem ne_nil_of_written {u : Text} {p : Place} (h : Written u p) : u ≠ [] := by
  cases h with
  | line ht => exact ne_nil_of_ordinal ht
  | column ht hu => simp

theorem inReach_of_written {u : Text} {p : Place} (h : Written u p) : p.InReach := by
  have hnumber : ∀ {t : Text} {k : Int}, Ordinal t k → 0 ≤ k ∧ k < lastNumber := by
    rintro t k ⟨-, hleast, hmost⟩
    omega
  cases h with
  | line ht => exact ⟨hnumber ht, hnumber ordinal_one⟩
  | column ht hu => exact ⟨hnumber ht, hnumber hu⟩

/-- What is written for a place is a line and a column. -/
theorem written_render {p : Place} (hp : p.InReach) : Written p.render p := by
  have hnumber : ∀ {k : Int}, 0 ≤ k ∧ k < lastNumber → Ordinal (Decimal.ofInt (k + 1)) k :=
    fun hk => ⟨Decimal.signedNumeral_ofInt _, by omega, by omega⟩
  have hwritten := Written.column (hnumber hp.line) (hnumber hp.column)
  rwa [render, List.append_assoc, List.singleton_append]

theorem parse_eq_ok_iff_gaps {t : Text} {p : Place} :
    parse t = .ok p ↔ ∃ front u back, Text.IsGap front ∧ Written u p ∧ Text.IsGap back ∧
      t = front ++ u ++ back := by
  rw [parse_eq_ok_iff]
  constructor
  · intro h
    obtain ⟨front, back, hfront, hback, ht⟩ := t.exists_gaps_around
    exact ⟨front, t.trim, back, hfront, h, hback, ht⟩
  · rintro ⟨front, u, back, hfront, hu, hback, rfl⟩
    rwa [Text.trim_gaps hfront (isUnbroken_of_written hu) (ne_nil_of_written hu) hback]

theorem parse_render {p : Place} (hp : p.InReach) : parse p.render = .ok p :=
  parse_eq_ok_iff_gaps.2 ⟨[], _, [], .nil, written_render hp, .nil, by simp⟩

/-- **Places are read as they are written.** A place whose numbers fit a word when they count from
    one comes back from its written form. A text is read as a place exactly if, but for white space
    around it, it is a line with or without a column behind a colon, both from one up to the largest
    number of a word and with or without a sign; and the place is one that comes back. -/
theorem parse_exact :
    (∀ p : Place, p.InReach → parse p.render = .ok p) ∧
    ∀ (t : Text) (p : Place),
      (parse t = .ok p ↔ Written t.trim p) ∧
      (parse t = .ok p ↔ ∃ front u back, Text.IsGap front ∧ Written u p ∧ Text.IsGap back ∧
        t = front ++ u ++ back) ∧
      (parse t = .ok p → p.InReach ∧ parse p.render = .ok p) := by
  refine ⟨fun p hp => parse_render hp, fun t p =>
    ⟨parse_eq_ok_iff, parse_eq_ok_iff_gaps, fun h => ?_⟩⟩
  have hp : p.InReach := inReach_of_written (parse_eq_ok_iff.1 h)
  exact ⟨hp, parse_render hp⟩

/-- Read off a text with white space around it, a sign and leading zeros, the last column there is
    comes back. -/
theorem parse_exact_lastColumn :
    parse (utf8 "\t+007:9223372036854775807\u00a0") = .ok ⟨6, 9223372036854775806⟩ ∧
    Written (utf8 "+007:9223372036854775807") ⟨6, 9223372036854775806⟩ ∧
    parse (render ⟨6, 9223372036854775806⟩) = .ok ⟨6, 9223372036854775806⟩ := by
  obtain ⟨hback, hread⟩ := parse_exact
  have h : parse (utf8 "\t+007:9223372036854775807\u00a0") = .ok ⟨6, 9223372036854775806⟩ := by
    decide +kernel
  obtain ⟨hwritten, -, hreach⟩ := hread _ _
  have htrim : Text.trim (utf8 "\t+007:9223372036854775807\u00a0")
      = utf8 "+007:9223372036854775807" := by
    decide +kernel
  exact ⟨h, htrim ▸ hwritten.1 h, hback _ (hreach h).1⟩

end Place

end ModifierToggle
