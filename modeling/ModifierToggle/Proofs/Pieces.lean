import ModifierToggle.Text.Blank
import Mathlib.Data.List.Basic

set_option autoImplicit false

/-! # The pieces of a text

A text is read as characters and stray bytes, and what is made of them is written as bytes again.
Nothing is lost on the way: the pieces of a text concatenate to the text (`Text.ofPieces_pieces`).
So the words of a text have no bytes of their own (`Text.mem_of_mem_words`). -/

namespace ModifierToggle

namespace Utf8

/-! ## Characters of one to four bytes -/

theorem toNat_isContinuation {b : UInt8} (h : isContinuation b = true) :
    0x80 ≤ b.toNat ∧ b.toNat ≤ 0xBF := by
  simpa [isContinuation, UInt8.le_iff_toNat_le] using h

theorem ofNat_eq {n : Nat} {b : UInt8} (h : n = b.toNat) : UInt8.ofNat n = b := by
  rw [h, UInt8.ofNat_toNat]

/-- The bytes of a character with a given number. -/
theorem encode_ofNat {n : Nat} (hn : n.isValidChar) :
    encode (Char.ofNat n) =
      if n ≤ 0x7F then [UInt8.ofNat n]
      else if n ≤ 0x7FF then [UInt8.ofNat (n / 64 % 32 + 0xC0), UInt8.ofNat (n % 64 + 0x80)]
      else if n ≤ 0xFFFF then
        [UInt8.ofNat (n / 4096 % 16 + 0xE0), UInt8.ofNat (n / 64 % 64 + 0x80),
          UInt8.ofNat (n % 64 + 0x80)]
      else
        [UInt8.ofNat (n / 262144 % 8 + 0xF0), UInt8.ofNat (n / 4096 % 64 + 0x80),
          UInt8.ofNat (n / 64 % 64 + 0x80), UInt8.ofNat (n % 64 + 0x80)] := by
  have hval : (Char.ofNat n).val.toNat = n := by
    rw [Char.ofNat, dif_pos hn]
    rfl
  simp only [encode, String.utf8EncodeChar, hval]

theorem encode_one {b : UInt8} (hb : b < 0x80) : encode (Char.ofNat b.toNat) = [b] := by
  rw [UInt8.lt_iff_toNat_lt] at hb
  have hlt : b.toNat < 0x80 := hb
  rw [encode_ofNat (Or.inl (by omega)), if_pos (by omega), UInt8.ofNat_toNat]

theorem encode_two {b c : UInt8} (hb : 0xC2 ≤ b.toNat ∧ b.toNat ≤ 0xDF)
    (hc : isContinuation c = true) :
    encode (Char.ofNat ((b.toNat - 0xC0) * 64 + payload c)) = [b, c] := by
  have hc := toNat_isContinuation hc
  simp only [payload]
  rw [encode_ofNat (Or.inl (by omega)), if_neg (by omega), if_pos (by omega),
    ofNat_eq (by omega : _ = b.toNat), ofNat_eq (by omega : _ = c.toNat)]

theorem encode_three {b c d : UInt8} (hb : 0xE0 ≤ b.toNat ∧ b.toNat ≤ 0xEF)
    (hc : isContinuation c = true) (hd : isContinuation d = true)
    (hlow : 0x800 ≤ (b.toNat - 0xE0) * 4096 + payload c * 64 + payload d)
    (hsurrogate : ¬ (0xD800 ≤ (b.toNat - 0xE0) * 4096 + payload c * 64 + payload d ∧
      (b.toNat - 0xE0) * 4096 + payload c * 64 + payload d ≤ 0xDFFF)) :
    encode (Char.ofNat ((b.toNat - 0xE0) * 4096 + payload c * 64 + payload d)) = [b, c, d] := by
  have hc := toNat_isContinuation hc
  have hd := toNat_isContinuation hd
  simp only [payload] at hlow hsurrogate ⊢
  have hvalid : ((b.toNat - 0xE0) * 4096 + c.toNat % 64 * 64 + d.toNat % 64).isValidChar := by
    unfold Nat.isValidChar
    omega
  rw [encode_ofNat hvalid, if_neg (by omega), if_neg (by omega), if_pos (by omega),
    ofNat_eq (by omega : _ = b.toNat), ofNat_eq (by omega : _ = c.toNat),
    ofNat_eq (by omega : _ = d.toNat)]

theorem encode_four {b c d e : UInt8} (hb : 0xF0 ≤ b.toNat ∧ b.toNat ≤ 0xF4)
    (hc : isContinuation c = true) (hd : isContinuation d = true) (he : isContinuation e = true)
    (hlow : 0x10000 ≤ (b.toNat - 0xF0) * 262144 + payload c * 4096 + payload d * 64 + payload e)
    (hhigh : (b.toNat - 0xF0) * 262144 + payload c * 4096 + payload d * 64 + payload e
      ≤ 0x10FFFF) :
    encode (Char.ofNat
      ((b.toNat - 0xF0) * 262144 + payload c * 4096 + payload d * 64 + payload e))
      = [b, c, d, e] := by
  have hc := toNat_isContinuation hc
  have hd := toNat_isContinuation hd
  have he := toNat_isContinuation he
  simp only [payload] at hlow hhigh ⊢
  have hvalid : ((b.toNat - 0xF0) * 262144 + c.toNat % 64 * 4096 + d.toNat % 64 * 64
      + e.toNat % 64).isValidChar := by
    unfold Nat.isValidChar
    omega
  rw [encode_ofNat hvalid, if_neg (by omega), if_neg (by omega), if_neg (by omega),
    ofNat_eq (by omega : _ = b.toNat), ofNat_eq (by omega : _ = c.toNat),
    ofNat_eq (by omega : _ = d.toNat), ofNat_eq (by omega : _ = e.toNat)]

/-- A character that is cut off at the front is written as it was read. -/
theorem front?_spec {b : UInt8} {rest : Text} {c : Char} {more : Nat}
    (h : front? b rest = some (c, more)) : encode c = b :: rest.take more := by
  unfold front? at h
  split at h
  · next hb =>
    cases h
    exact encode_one hb
  split at h
  · next hb =>
    simp only [Bool.and_eq_true, decide_eq_true_eq, UInt8.le_iff_toNat_le] at hb
    split at h
    · split at h
      · next hc =>
        cases h
        exact encode_two hb hc
      · cases h
    · cases h
  split at h
  · next hb =>
    simp only [Bool.and_eq_true, decide_eq_true_eq, UInt8.le_iff_toNat_le] at hb
    split at h
    · simp only at h
      split at h
      · next hcond =>
        simp only [Bool.and_eq_true, decide_eq_true_eq, Bool.not_eq_true', Bool.and_eq_false_iff,
          decide_eq_false_iff_not] at hcond
        cases h
        exact encode_three hb hcond.1.1.1 hcond.1.1.2 hcond.1.2 (by omega)
      · cases h
    · cases h
  split at h
  · next hb =>
    simp only [Bool.and_eq_true, decide_eq_true_eq, UInt8.le_iff_toNat_le] at hb
    split at h
    · simp only at h
      split at h
      · next hcond =>
        simp only [Bool.and_eq_true, decide_eq_true_eq] at hcond
        cases h
        exact encode_four hb hcond.1.1.1.1 hcond.1.1.1.2 hcond.1.1.2 hcond.1.2 hcond.2
      · cases h
    · cases h
  · cases h

end Utf8

namespace Text

/-! ## Writing the pieces -/

theorem ofPieces_piecesAfter (skip : Nat) (t : Text) :
    ofPieces (Utf8.piecesAfter skip t) = t.drop skip := by
  induction t generalizing skip with
  | nil => simp [Utf8.piecesAfter, ofPieces]
  | cons b rest ih =>
    cases skip with
    | succ skip => exact ih skip
    | zero =>
      rw [Utf8.piecesAfter]
      split
      · next c more hfront =>
        have hrest := ih more
        rw [ofPieces] at hrest ⊢
        rw [List.flatMap_cons, hrest, Piece.bytes, Utf8.front?_spec hfront, List.cons_append,
          List.take_append_drop]
        rfl
      · have hrest := ih 0
        rw [ofPieces] at hrest ⊢
        rw [List.flatMap_cons, hrest]
        rfl

/-- **The pieces of a text concatenate to the text.** -/
theorem ofPieces_pieces (t : Text) : ofPieces t.pieces = t := ofPieces_piecesAfter 0 t

/-! ## The bytes of words -/

theorem mem_of_mem_wordsFrom {b : UInt8} {w : Text} {word ps : List Piece}
    (hw : w ∈ wordsFrom word ps) (hb : b ∈ w) : b ∈ ofPieces (word.reverse ++ ps) := by
  have happend : ∀ ps qs : List Piece, ofPieces (ps ++ qs) = ofPieces ps ++ ofPieces qs :=
    fun _ _ => List.flatMap_append
  induction ps generalizing word with
  | nil =>
    rw [wordsFrom] at hw
    split at hw
    · cases hw
    · rw [List.mem_singleton.1 hw] at hb
      simpa using hb
  | cons p rest ih =>
    have hlater : w ∈ wordsFrom [] rest → b ∈ ofPieces (word.reverse ++ p :: rest) := by
      intro hlater
      have hmem := ih hlater
      rw [List.reverse_nil, List.nil_append] at hmem
      rw [List.append_cons, happend]
      exact List.mem_append_right _ hmem
    rw [wordsFrom] at hw
    split at hw
    · split at hw
      · exact hlater hw
      · rcases List.mem_cons.1 hw with rfl | hw
        · rw [happend]
          exact List.mem_append_left _ hb
        · exact hlater hw
    · simpa using ih hw

/-- The bytes of a word are bytes of the text. -/
theorem mem_of_mem_words {b : UInt8} {w t : Text} (hw : w ∈ t.words) (hb : b ∈ w) : b ∈ t := by
  have hmem := mem_of_mem_wordsFrom hw hb
  rwa [List.reverse_nil, List.nil_append, ofPieces_pieces] at hmem

end Text

end ModifierToggle
