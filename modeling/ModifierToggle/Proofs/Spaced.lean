import Mathlib.Data.List.Basic
import Mathlib.Tactic.Common
import ModifierToggle.Editor.LineEdit

set_option autoImplicit false

/-! # Words with a space behind each

A header in its usual form is a list of words, each with one space behind it, between the
indentation and the keyword that opens the declaration. This file is about such lists as texts:
`Text.spaced` writes a list of words, `Text.words` reads it back (`words_spaced`), and joining the
words is the same as writing them (`join_eq_spaced`). The words are made of ASCII bytes, so reading
them as characters comes to the same as reading them as bytes. -/

namespace ModifierToggle

namespace Byte

/-! ## Classes of bytes -/

theorem isWord_of_isSeparator {b : UInt8} (h : isSeparator b = true) : isWord b = false := by
  simp only [isSeparator, Bool.or_eq_true, beq_iff_eq] at h
  rcases h with (((rfl | rfl) | rfl) | rfl) | rfl <;> rfl

theorem isSeparator_of_isBlank {b : UInt8} (h : isBlank b = true) : isSeparator b = true := by
  simp only [isBlank, Bool.or_eq_true, beq_iff_eq] at h
  rcases h with rfl | rfl <;> rfl

theorem isWord_of_isBlank {b : UInt8} (h : isBlank b = true) : isWord b = false :=
  isWord_of_isSeparator (isSeparator_of_isBlank h)

theorem isSeparator_of_isWord {b : UInt8} (h : isWord b = true) : isSeparator b = false := by
  cases hs : isSeparator b with
  | false => rfl
  | true => rw [isWord_of_isSeparator hs] at h; exact absurd h (by simp)

theorem isBlank_of_isWord {b : UInt8} (h : isWord b = true) : isBlank b = false := by
  cases hb : isBlank b with
  | false => rfl
  | true => rw [isWord_of_isBlank hb] at h; exact absurd h (by simp)

theorem isPlainWord_of_isLetter {b : UInt8} (h : isLetter b = true) : isPlainWord b = true := by
  simp [isPlainWord, h]

theorem isWord_of_isPlainWord {b : UInt8} (h : isPlainWord b = true) : isWord b = true := by
  simp [isWord, h]

theorem startsModifier_of_isBlank {b : UInt8} (h : isBlank b = true) :
    startsModifier b = false := by
  simp only [isBlank, Bool.or_eq_true, beq_iff_eq] at h
  rcases h with rfl | rfl <;> rfl

theorem ne_slash_of_isWord {b : UInt8} (h : isWord b = true) : b ≠ slash := by
  rintro rfl
  exact absurd h (by decide)

theorem ne_slash_of_isSeparator {b : UInt8} (h : isSeparator b = true) : b ≠ slash := by
  rintro rfl
  exact absurd h (by decide)

/-- Word bytes are ASCII characters behind the space. -/
theorem toNat_of_isWord {b : UInt8} (h : isWord b = true) : 0x23 < b.toNat ∧ b.toNat < 0x7B := by
  simp only [isWord, isPlainWord, isLetter, isDigit, underscore, atSign, colon, dollar,
    Bool.or_eq_true, Bool.and_eq_true, beq_iff_eq, decide_eq_true_eq, UInt8.le_iff_toNat_le,
    ← UInt8.toNat_inj] at h
  simp only [UInt8.reduceToNat] at h
  omega

end Byte

namespace Text

open LineEdit (annotates)

/-! ## Words of a header -/

/-- A plain word that starts with a letter: the form of keywords and access names. -/
def isName : Text → Bool
  | [] => false
  | b :: rest => Byte.isLetter b && rest.all Byte.isPlainWord

/-- A word as it may stand in a header: a name, or `@` and word bytes after it. -/
def isHeaderWord : Text → Bool
  | [] => false
  | b :: rest =>
    (Byte.isLetter b && rest.all Byte.isPlainWord) || (b == Byte.atSign && rest.all Byte.isWord)

theorem isHeaderWord_of_isName {w : Text} (h : w.isName = true) : w.isHeaderWord = true := by
  cases w with
  | nil => cases h
  | cons b rest => simp only [isName] at h; simp [isHeaderWord, h]

theorem ne_nil_of_isHeaderWord {w : Text} (h : w.isHeaderWord = true) : w ≠ [] := by
  rintro rfl
  cases h

theorem isWord_of_isHeaderWord {w : Text} (h : w.isHeaderWord = true) :
    ∀ b ∈ w, Byte.isWord b = true := by
  cases w with
  | nil => cases h
  | cons b rest =>
    simp only [isHeaderWord, Bool.or_eq_true, Bool.and_eq_true, beq_iff_eq, List.all_eq_true] at h
    intro c hc
    rcases h with ⟨hb, hrest⟩ | ⟨rfl, hrest⟩
    · rcases List.mem_cons.1 hc with rfl | hc
      · exact Byte.isWord_of_isPlainWord (Byte.isPlainWord_of_isLetter hb)
      · exact Byte.isWord_of_isPlainWord (hrest c hc)
    · rcases List.mem_cons.1 hc with rfl | hc
      · rfl
      · exact hrest c hc

/-- A word of a header is an annotation or made of plain word bytes. -/
theorem annotates_or_plain {w : Text} (h : w.isHeaderWord = true) :
    (annotates w || w.all Byte.isPlainWord) = true := by
  cases w with
  | nil => cases h
  | cons b rest =>
    simp only [isHeaderWord, Bool.or_eq_true, Bool.and_eq_true, beq_iff_eq] at h
    rcases h with ⟨hb, hrest⟩ | ⟨rfl, -⟩
    · rw [List.all_cons, Byte.isPlainWord_of_isLetter hb, hrest]
      simp
    · simp [annotates]

/-- A name is no annotation. -/
theorem not_annotates_of_isName {w : Text} (h : w.isName = true) : annotates w = false := by
  cases w with
  | nil => cases h
  | cons b rest =>
    simp only [isName, Bool.and_eq_true] at h
    have hb : b ≠ Byte.atSign := by
      rintro rfl
      exact absurd h.1 (by decide)
    simpa [annotates] using hb

/-- A word of a header starts with a byte that modifiers start with. -/
theorem startsModifier_head {b : UInt8} {rest : Text} (h : isHeaderWord (b :: rest) = true) :
    Byte.startsModifier b = true := by
  simp only [isHeaderWord, Bool.or_eq_true, Bool.and_eq_true, beq_iff_eq] at h
  rcases h with ⟨hb, -⟩ | ⟨rfl, -⟩
  · simp [Byte.startsModifier, hb]
  · rfl

/-! ## Writing words -/

/-- The words, each with a space behind it. -/
def spaced (ws : List Text) : Text := ws.flatMap (· ++ [Byte.space])

@[simp] theorem spaced_nil : spaced [] = [] := rfl

@[simp] theorem spaced_cons (w : Text) (ws : List Text) :
    spaced (w :: ws) = w ++ Byte.space :: spaced ws := by
  simp [spaced]

@[simp] theorem spaced_append (ws vs : List Text) : spaced (ws ++ vs) = spaced ws ++ spaced vs := by
  simp [spaced]

theorem join_eq_spaced {ws : List Text} (h : ws ≠ []) :
    join [Byte.space] ws ++ [Byte.space] = spaced ws := by
  induction ws with
  | nil => exact absurd rfl h
  | cons w ws ih =>
    cases ws with
    | nil => simp [join]
    | cons v vs =>
      have hrest := ih (List.cons_ne_nil _ _)
      rw [join, List.append_assoc, hrest, spaced_cons]
      simp

/-- Written words end in one space. -/
theorem drop_trimEnd_spaced {ws : List Text} (hne : ws ≠ [])
    (hws : ∀ w ∈ ws, w.isHeaderWord = true) :
    (spaced ws).drop ((spaced ws).trimEndWhile Byte.isBlank).length = [Byte.space] := by
  have hw := hws _ (List.getLast_mem hne)
  have hsplit : spaced ws = (spaced ws.dropLast ++ ws.getLast hne) ++ [Byte.space] := by
    conv_lhs => rw [← List.dropLast_append_getLast hne]
    simp
  -- the byte before the last space belongs to a word
  have htrim : (spaced ws).trimEndWhile Byte.isBlank = spaced ws.dropLast ++ ws.getLast hne := by
    obtain ⟨b, u, hu⟩ := List.exists_cons_of_ne_nil
      (List.reverse_ne_nil_iff.2 (ne_nil_of_isHeaderWord hw))
    have hb : Byte.isBlank b = false := by
      apply Byte.isBlank_of_isWord
      apply isWord_of_isHeaderWord hw
      rw [← List.mem_reverse, hu]
      exact List.mem_cons_self
    rw [trimEndWhile, hsplit]
    simp only [List.reverse_append, List.reverse_cons, List.reverse_nil, List.nil_append, hu,
      List.cons_append]
    rw [List.dropWhile_cons, if_pos (by decide), List.dropWhile_cons, hb]
    simp only [Bool.false_eq_true, if_false]
    rw [← List.cons_append, ← hu]
    simp
  rw [htrim, hsplit, List.drop_left]

/-! ## Reading words -/

/-- The piece an ASCII byte stands for. -/
def asciiPiece (b : UInt8) : Piece := .char (Char.ofNat b.toNat)

theorem pieces_cons_ascii {b : UInt8} (hb : b.toNat < 0x80) (rest : Text) :
    pieces (b :: rest) = asciiPiece b :: pieces rest := by
  have hlt : b < 0x80 := by
    rw [UInt8.lt_iff_toNat_lt]
    exact hb
  simp only [pieces, Utf8.piecesAfter, Utf8.front?, hlt, if_true]
  rfl

theorem toNat_ofNat_ascii {n : Nat} (hn : n < 0x80) : (Char.ofNat n).toNat = n := by
  have hvalid : n.isValidChar := Or.inl (by omega)
  rw [Char.ofNat, dif_pos hvalid]
  rfl

theorem bytes_asciiPiece {b : UInt8} (hb : b.toNat < 0x80) : (asciiPiece b).bytes = [b] := by
  have hn : (Char.ofNat b.toNat).val.toNat = b.toNat := toNat_ofNat_ascii hb
  simp only [asciiPiece, Piece.bytes, Utf8.encode, String.utf8EncodeChar, hn]
  rw [if_pos (by omega)]
  simp

theorem isWhite_asciiPiece_of_isWord {b : UInt8} (hb : Byte.isWord b = true) :
    (asciiPiece b).isWhite = false := by
  have hrange := Byte.toNat_of_isWord hb
  have hn : (Char.ofNat b.toNat).toNat = b.toNat := toNat_ofNat_ascii (by omega)
  simp only [asciiPiece, Piece.isWhite, isWhiteSpace, hn]
  simp
  omega

/-- A word at the front is read up to the space behind it; `read` is what has been read of it. -/
theorem wordsFrom_word {w : Text} (hw : ∀ b ∈ w, Byte.isWord b = true) (read : List Piece)
    (rest : Text) (hne : read ≠ [] ∨ w ≠ []) :
    wordsFrom read (pieces (w ++ Byte.space :: rest))
      = (ofPieces read.reverse ++ w) :: wordsFrom [] (pieces rest) := by
  induction w generalizing read with
  | nil =>
    have hread : read.isEmpty = false := by simpa using hne
    rw [List.nil_append, pieces_cons_ascii (by decide), wordsFrom, if_pos (by decide), hread]
    simp
  | cons b w ih =>
    have hb := hw b List.mem_cons_self
    have hascii : b.toNat < 0x80 := by
      have := Byte.toNat_of_isWord hb
      omega
    rw [List.cons_append, pieces_cons_ascii hascii, wordsFrom,
      if_neg (by simp [isWhite_asciiPiece_of_isWord hb]),
      ih (fun c hc => hw c (List.mem_cons_of_mem _ hc)) _ (Or.inl (List.cons_ne_nil _ _))]
    simp [ofPieces, bytes_asciiPiece hascii]

/-- **Words can be read back from what is written.** -/
theorem words_spaced {ws : List Text} (hws : ∀ w ∈ ws, w.isHeaderWord = true) :
    (spaced ws).words = ws := by
  induction ws with
  | nil => rfl
  | cons w ws ih =>
    have hw := hws w List.mem_cons_self
    rw [words, spaced_cons, wordsFrom_word (isWord_of_isHeaderWord hw) [] _
      (Or.inr (ne_nil_of_isHeaderWord hw))]
    congr 1
    exact ih fun v hv => hws v (List.mem_cons_of_mem _ hv)

end Text

end ModifierToggle
