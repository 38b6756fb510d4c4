import ModifierToggle.Proofs.LineViews
import ModifierToggle.Proofs.Pieces

set_option autoImplicit false

/-! # Words set apart by blanks

The order of modifiers is changed word by word: the words are read off a text, as characters with
white space between them, and written again with spaces between them. `Text.words_append_white` is
all that is needed about reading: words are cut at white space. A text is *spread* over its words if
they stand in it in turn with blanks behind each (`Text.Spread`). Then whatever is seen of the text
is seen of its words one by one, in whatever order they are written. -/

namespace ModifierToggle

/-- Whether a piece is a space or a tab. -/
def Piece.isBlank : Piece → Bool
  | .char c => c == ' ' || c == '\t'
  | .stray _ => false

theorem Piece.exists_byte_of_isBlank {p : Piece} (h : p.isBlank = true) :
    ∃ b, p.bytes = [b] ∧ Byte.isBlank b = true := by
  cases p with
  | stray b => cases h
  | char c =>
    simp only [isBlank, Bool.or_eq_true, beq_iff_eq] at h
    rcases h with rfl | rfl
    · exact ⟨Byte.space, rfl, rfl⟩
    · exact ⟨Byte.tab, rfl, rfl⟩

/-! ## Cutting a text at white space -/

namespace Utf8

theorem isContinuation_of_ascii {s : UInt8} (hs : s.toNat < 0x80) : isContinuation s = false := by
  cases h : isContinuation s with
  | false => rfl
  | true =>
    have := toNat_isContinuation h
    omega

/-- A character does not reach over a byte that continues none. -/
theorem front?_append {s : UInt8} (hs : isContinuation s = false) (b : UInt8) (u v : Text) :
    front? b (u ++ s :: v) = front? b u := by
  unfold front?
  match u with
  | [] => rcases v with _ | ⟨c, _ | ⟨d, v⟩⟩ <;> simp [hs]
  | [c] => rcases v with _ | ⟨d, v⟩ <;> simp [hs]
  | [c, d] => simp [hs]
  | c :: d :: e :: u => rfl

theorem front?_le {b : UInt8} {rest : Text} {c : Char} {more : Nat}
    (h : front? b rest = some (c, more)) : more ≤ rest.length := by
  unfold front? at h
  match rest with
  | [] => grind
  | [_] => grind
  | [_, _] => grind
  | _ :: _ :: _ :: _ => grind

theorem piecesAfter_append {s : UInt8} (hs : isContinuation s = false) {skip : Nat} {u : Text}
    (hskip : skip ≤ u.length) (v : Text) :
    piecesAfter skip (u ++ s :: v) = piecesAfter skip u ++ piecesAfter 0 (s :: v) := by
  induction u generalizing skip with
  | nil =>
    obtain rfl : skip = 0 := by simpa using hskip
    rfl
  | cons b u ih =>
    cases skip with
    | succ skip => exact ih (by simpa using hskip)
    | zero =>
      rw [List.cons_append, piecesAfter, piecesAfter, front?_append hs]
      cases hfront : front? b u with
      | none => exact congrArg (_ :: ·) (ih (Nat.zero_le _))
      | some found => exact congrArg (_ :: ·) (ih (front?_le hfront))

end Utf8

namespace Text

open Comment (Reads)

theorem pieces_append {s : UInt8} (hs : s.toNat < 0x80) (u v : Text) :
    pieces (u ++ s :: v) = pieces u ++ asciiPiece s :: pieces v := by
  have hcut := Utf8.piecesAfter_append (Utf8.isContinuation_of_ascii hs) (Nat.zero_le u.length) v
  rw [← pieces_cons_ascii hs]
  exact hcut

theorem wordsFrom_append {p : Piece} (hp : p.isWhite = true) (word ps qs : List Piece) :
    wordsFrom word (ps ++ p :: qs) = wordsFrom word ps ++ wordsFrom [] qs := by
  induction ps generalizing word with
  | nil =>
    rw [List.nil_append, wordsFrom, wordsFrom, if_pos hp]
    split <;> rfl
  | cons q ps ih =>
    rw [List.cons_append, wordsFrom, wordsFrom]
    split
    · split
      · exact ih []
      · rw [ih [], List.cons_append]
    · exact ih _

theorem isWhite_asciiPiece {s : UInt8} (hs : Byte.isSeparator s = true) :
    s.toNat < 0x80 ∧ (asciiPiece s).isWhite = true := by
  simp only [Byte.isSeparator, Bool.or_eq_true, beq_iff_eq] at hs
  rcases hs with (((rfl | rfl) | rfl) | rfl) | rfl <;> decide

/-- **Words are cut at white space.** -/
theorem words_append_white {s : UInt8} (hs : Byte.isSeparator s = true) (u v : Text) :
    words (u ++ s :: v) = words u ++ words v := by
  obtain ⟨hascii, hwhite⟩ := isWhite_asciiPiece hs
  rw [words, pieces_append hascii, wordsFrom_append hwhite]
  rfl

theorem words_snoc_white {s : UInt8} (hs : Byte.isSeparator s = true) (u : Text) :
    words (u ++ [s]) = words u := by
  rw [words_append_white hs]
  exact List.append_nil _

/-- A word of word bytes is read as one. -/
theorem words_word {w : Text} (hw : ∀ b ∈ w, Byte.isWord b = true) (hne : w ≠ []) :
    w.words = [w] := by
  have hread := wordsFrom_word hw [] [] (Or.inr hne)
  rw [← words_snoc_white (by decide : Byte.isSeparator Byte.space = true) w]
  exact hread

theorem words_gap {u gap : Text} (hne : gap ≠ []) (hgap : ∀ b ∈ gap, Byte.isSeparator b = true)
    (v : Text) : words (u ++ (gap ++ v)) = words u ++ words v := by
  induction gap generalizing u with
  | nil => exact absurd rfl hne
  | cons b gap ih =>
    rw [List.cons_append, words_append_white (hgap b List.mem_cons_self)]
    cases gap with
    | nil => rfl
    | cons c gap =>
      have hrest := ih (u := []) (List.cons_ne_nil _ _) fun c hc =>
        hgap c (List.mem_cons_of_mem _ hc)
      exact congrArg (words u ++ ·) hrest

/-! ## Texts spread over words -/

theorem closesWord_blanks {gap : Text} (hne : gap ≠ []) (hblank : ∀ b ∈ gap, Byte.isBlank b = true)
    (v : Text) : ClosesWord (gap ++ v) := by
  obtain ⟨b, gap', rfl⟩ := List.exists_cons_of_ne_nil hne
  intro c hc
  obtain rfl := Option.some.inj hc
  exact Byte.isSeparator_of_isBlank (hblank b List.mem_cons_self)

/-- No comment opens where texts in which none does are put together with blanks between them. -/
theorem reads_append_blanks {u gap v : Text} (hu : Reads .code u u) (hv : Reads .code v v)
    (hne : gap ≠ []) (hblank : ∀ b ∈ gap, Byte.isBlank b = true) :
    Reads .code (u ++ (gap ++ v)) (u ++ (gap ++ v)) := by
  have hslash : ∀ b ∈ gap, b ≠ Byte.slash := fun b hb =>
    Byte.ne_slash_of_isSeparator (Byte.isSeparator_of_isBlank (hblank b hb))
  have hgap : Reads .code (gap ++ v) (gap ++ v) :=
    (Reads.of_noSlash hslash).append hv fun hlast =>
      absurd rfl (hslash _ (List.mem_of_getLast? hlast))
  refine hu.append hgap fun _ => ?_
  obtain ⟨b, gap', rfl⟩ := List.exists_cons_of_ne_nil hne
  have hb := hblank b List.mem_cons_self
  rintro ⟨-, hhead | hhead⟩
  · obtain rfl := Option.some.inj hhead
    exact absurd hb (by decide)
  · obtain rfl := Option.some.inj hhead
    exact absurd hb (by decide)

/-- The words stand in the text in turn, each with blanks behind it. -/
inductive Spread : List Text → Text → Prop
  | nil : Spread [] []
  | cons {w gap run : Text} {ws : List Text} : gap ≠ [] → (∀ b ∈ gap, Byte.isBlank b = true) →
      Spread ws run → Spread (w :: ws) (w ++ (gap ++ run))

theorem spread_join {ws : List Text} (hne : ws ≠ []) {gap : Text} (hgap : gap ≠ [])
    (hblank : ∀ b ∈ gap, Byte.isBlank b = true) : Spread ws (join [Byte.space] ws ++ gap) := by
  induction ws with
  | nil => exact absurd rfl hne
  | cons w ws ih =>
    cases ws with
    | nil => simpa [join] using Spread.cons hgap hblank .nil
    | cons next rest =>
      have hrest := ih (List.cons_ne_nil _ _)
      rw [join, List.append_assoc, List.append_assoc]
      exact .cons (List.cons_ne_nil _ _) (List.forall_mem_singleton.2 rfl) hrest

namespace Spread

variable {ws : List Text} {run : Text} (h : Spread ws run)

include h

theorem eq_nil (hrun : run = []) : ws = [] := by
  cases h with
  | nil => rfl
  | cons hgap => simp [hgap] at hrun

theorem mem_cases {b : UInt8} (hb : b ∈ run) : Byte.isBlank b = true ∨ ∃ w ∈ ws, b ∈ w := by
  induction h with
  | nil => cases hb
  | @cons w gap run ws _ hblank _ ih =>
    rcases List.mem_append.1 hb with hb | hb
    · exact Or.inr ⟨w, List.mem_cons_self, hb⟩
    · rcases List.mem_append.1 hb with hb | hb
      · exact Or.inl (hblank b hb)
      · exact (ih hb).imp id fun ⟨v, hv, hmem⟩ => ⟨v, List.mem_cons_of_mem _ hv, hmem⟩

theorem isBlank_getLast : ∀ b ∈ run.getLast?, Byte.isBlank b = true := by
  induction h with
  | nil => simp
  | @cons w gap run ws hgap hblank _ ih =>
    intro b hb
    rw [← List.append_assoc] at hb
    cases run using List.reverseRecOn with
    | nil =>
      rw [List.append_nil, List.getLast?_append_of_ne_nil _ hgap] at hb
      exact hblank b (List.mem_of_getLast? hb)
    | append_singleton run c => exact ih b (by simpa using hb)

theorem endsOutsideWord : EndsOutsideWord run := fun b hb =>
  Byte.isWord_of_isBlank (h.isBlank_getLast b hb)

theorem standing_eq : run.standing = ws.flatMap fun w => w.standing := by
  induction h with
  | nil => rfl
  | @cons w gap run ws hgap hblank _ ih =>
    rw [standing_append_closed w (closesWord_blanks hgap hblank run) fun _ => rfl,
      standing_blanks hblank, ih, List.flatMap_cons]

theorem hasLooseSlash_eq : run.hasLooseSlash = ws.any hasLooseSlash := by
  induction h with
  | nil => rfl
  | @cons w gap run ws hgap hblank _ ih =>
    rw [hasLooseSlash_append_closed w (closesWord_blanks hgap hblank run),
      hasLooseSlash_blanks hblank, ih, List.any_cons]

theorem words_eq (hws : ∀ w ∈ ws, w.words = [w]) : run.words = ws := by
  induction h with
  | nil => rfl
  | @cons w gap run ws hgap hblank _ ih =>
    rw [words_gap hgap (fun b hb => Byte.isSeparator_of_isBlank (hblank b hb)),
      ih fun v hv => hws v (List.mem_cons_of_mem _ hv), hws w List.mem_cons_self]
    rfl

/-- No comment opens among words in which none does. -/
theorem reads_self (hws : ∀ w ∈ ws, Reads .code w w) : Reads .code run run := by
  induction h with
  | nil => exact .nil
  | @cons w gap run ws hgap hblank _ ih =>
    exact reads_append_blanks (hws w List.mem_cons_self)
      (ih fun v hv => hws v (List.mem_cons_of_mem _ hv)) hgap hblank

theorem reads_words (hrun : Reads .code run run) : ∀ w ∈ ws, Reads .code w w := by
  induction h with
  | nil => simp
  | @cons w gap run ws hgap hblank _ ih =>
    obtain ⟨hw, hrest⟩ := hrun.self_append
    rintro v (_ | ⟨_, hv⟩)
    · exact hw
    · exact ih hrest.self_append.2 v hv

end Spread

theorem drop_trimEndWhile (p : UInt8 → Bool) (t : Text) :
    t.drop (t.trimEndWhile p).length = (t.reverse.takeWhile p).reverse := by
  have hsplit : t.trimEndWhile p ++ (t.reverse.takeWhile p).reverse = t := by
    rw [trimEndWhile, ← List.reverse_append, List.takeWhile_append_dropWhile, List.reverse_reverse]
  nth_rewrite 2 [← hsplit]
  exact List.drop_left

/-- What is trimmed off the end of a text are blanks. -/
theorem isBlank_of_mem_trimmed {t : Text} {b : UInt8}
    (hb : b ∈ t.drop (t.trimEndWhile Byte.isBlank).length) : Byte.isBlank b = true := by
  rw [drop_trimEndWhile, List.mem_reverse] at hb
  exact List.all_eq_true.1 List.all_takeWhile b hb

theorem trimmed_eq_nil_iff {p : UInt8 → Bool} {t : Text} :
    t.drop (t.trimEndWhile p).length = [] ↔ ∀ b ∈ t.getLast?, p b = false := by
  rw [drop_trimEndWhile, List.reverse_eq_nil_iff]
  cases t using List.reverseRecOn with
  | nil => simp
  | append_singleton t b => cases hb : p b <;> simp [hb]

/-- The blanks behind the last word. -/
theorem Spread.blanks_behind {ws : List Text} {run : Text} (h : Spread ws run) (hne : ws ≠ []) :
    let gap := run.drop (run.trimEndWhile Byte.isBlank).length
    gap ≠ [] ∧ ∀ b ∈ gap, Byte.isBlank b = true := by
  intro gap
  constructor
  · have hrun : run ≠ [] := fun hnil => hne (h.eq_nil hnil)
    obtain ⟨run', b, rfl⟩ := (List.eq_nil_or_concat' run).resolve_left hrun
    have hb := h.isBlank_getLast b (by simp)
    simp [gap, drop_trimEndWhile, hb]
  · exact fun b hb => isBlank_of_mem_trimmed hb

/-! ### Where the words of a text are spread -/

/-- Whether the only white space of a text is spaces and tabs. -/
def hasOnlyBlanks (t : Text) : Bool := t.pieces.all fun p => !p.isWhite || p.isBlank

theorem hasOnlyBlanks_append {s : UInt8} (hs : Byte.isSeparator s = true) (u v : Text) :
    (u ++ s :: v).hasOnlyBlanks = (u.hasOnlyBlanks && Byte.isBlank s && v.hasOnlyBlanks) := by
  have hpiece : (!(asciiPiece s).isWhite || (asciiPiece s).isBlank) = Byte.isBlank s := by
    simp only [Byte.isSeparator, Bool.or_eq_true, beq_iff_eq] at hs
    rcases hs with (((rfl | rfl) | rfl) | rfl) | rfl <;> decide
  rw [hasOnlyBlanks, pieces_append (isWhite_asciiPiece hs).1, List.all_append, List.all_cons,
    hpiece, ← Bool.and_assoc]
  rfl

/-- The pieces of a text that ends with white space, read on from within a word, whose pieces are
    given backwards. -/
theorem exists_spread_wordsFrom (word : List Piece) {ps : List Piece}
    (hblank : ∀ p ∈ ps, p.isWhite = true → p.isBlank = true)
    (hlast : ∀ p ∈ ps.getLast?, p.isWhite = true) (hword : word ≠ [] → ps ≠ []) :
    ∃ gap run, ofPieces word.reverse ++ ofPieces ps = gap ++ run ∧
      (∀ b ∈ gap, Byte.isBlank b = true) ∧ (word ≠ [] → gap = []) ∧
      Spread (wordsFrom word ps) run := by
  induction ps generalizing word with
  | nil =>
    have hnil : word = [] := by
      by_contra hne
      exact hword hne rfl
    subst hnil
    exact ⟨[], [], rfl, by simp, fun _ => rfl, .nil⟩
  | cons p rest ih =>
    have hblank' : ∀ q ∈ rest, q.isWhite = true → q.isBlank = true := fun q hq =>
      hblank q (List.mem_cons_of_mem _ hq)
    have hlast' : ∀ q ∈ rest.getLast?, q.isWhite = true := fun q hq =>
      hlast q (by simp [List.getLast?_cons, Option.mem_def.1 hq])
    have hcons : ofPieces (p :: rest) = p.bytes ++ ofPieces rest := List.flatMap_cons
    cases hp : p.isWhite with
    | true =>
      obtain ⟨b, hbytes, hb⟩ := Piece.exists_byte_of_isBlank (hblank p List.mem_cons_self hp)
      obtain ⟨gap, run, hrest, hgap, -, hspread⟩ := ih [] hblank' hlast' (by simp)
      have hgap' : ∀ c ∈ b :: gap, Byte.isBlank c = true := by
        rintro c (_ | ⟨_, hc⟩)
        · exact hb
        · exact hgap c hc
      have htext : ofPieces (p :: rest) = b :: gap ++ run := by
        rw [hcons, hbytes]
        exact congrArg (b :: ·) hrest
      rw [wordsFrom, if_pos hp, htext]
      split
      · next hempty =>
        obtain rfl := List.isEmpty_iff.1 hempty
        exact ⟨b :: gap, run, rfl, hgap', by simp, hspread⟩
      · exact ⟨[], _, rfl, by simp, fun _ => rfl, .cons (List.cons_ne_nil _ _) hgap' hspread⟩
    | false =>
      have hrest : rest ≠ [] := by
        rintro rfl
        rw [hlast p rfl] at hp
        cases hp
      obtain ⟨gap, run, htext, -, hnil, hspread⟩ := ih (p :: word) hblank' hlast' fun _ => hrest
      obtain rfl := hnil (List.cons_ne_nil _ _)
      rw [wordsFrom, if_neg (by simp [hp])]
      refine ⟨[], run, ?_, by simp, fun _ => rfl, hspread⟩
      rw [← htext, hcons]
      simp [ofPieces]

/-- **A text is spread over its words** if its only white space is blanks, from the first word on
    and up to its end. -/
theorem spread_words {run : Text} (hblanks : run.hasOnlyBlanks = true)
    (hhead : ∀ b ∈ run.head?, Byte.isBlank b = false)
    (hlast : ∀ b ∈ run.getLast?, Byte.isBlank b = true) : Spread run.words run := by
  have hwhite : ∀ p ∈ run.pieces, p.isWhite = true → p.isBlank = true := by
    intro p hp hwhite
    simpa [hwhite] using List.all_eq_true.1 hblanks p hp
  have hlast' : ∀ p ∈ run.pieces.getLast?, p.isWhite = true := by
    cases run using List.reverseRecOn with
    | nil => simp [pieces, Utf8.piecesAfter]
    | append_singleton run b =>
      have hb := isWhite_asciiPiece (Byte.isSeparator_of_isBlank (hlast b (by simp)))
      rw [pieces_append hb.1]
      simpa [pieces, Utf8.piecesAfter] using hb.2
  obtain ⟨gap, run', htext, hgap, -, hspread⟩ :=
    exists_spread_wordsFrom [] hwhite hlast' (by simp)
  have htext' : run = gap ++ run' := (ofPieces_pieces run).symm.trans htext
  cases gap with
  | nil =>
    obtain rfl : run = run' := htext'
    exact hspread
  | cons b gap =>
    have hb := hhead b (by simp [htext'])
    rw [hgap b List.mem_cons_self] at hb
    cases hb

/-! ## Taking a word out from between white space -/

section

variable {u v t gap : Text} {s s' : UInt8}

theorem Rejoined.exists_gap (h : Rejoined (u ++ [s]) (s' :: v) t) :
    ∃ gap, gap ≠ [] ∧ (∀ b ∈ gap, b = s ∨ b = s') ∧ t = u ++ (gap ++ v) := by
  cases h with
  | exact => exact ⟨[s, s'], by simp, by simp, by simp⟩
  | @blankAfter c v' hc hv =>
    obtain ⟨rfl, rfl⟩ := List.cons.inj hv
    exact ⟨[s], by simp, by simp, by simp⟩
  | @blankBefore c u' hc hu =>
    obtain ⟨rfl, -⟩ := List.append_inj' hu rfl
    exact ⟨[s'], by simp, by simp, by simp⟩

theorem hasOnlyBlanks_gap (hne : gap ≠ []) (hgap : ∀ b ∈ gap, Byte.isBlank b = true)
    (hu : u.hasOnlyBlanks = true) (hv : v.hasOnlyBlanks = true) :
    (u ++ (gap ++ v)).hasOnlyBlanks = true := by
  induction gap generalizing u with
  | nil => exact absurd rfl hne
  | cons b gap ih =>
    have hb := hgap b List.mem_cons_self
    rw [List.cons_append, hasOnlyBlanks_append (Byte.isSeparator_of_isBlank hb), hu, hb]
    cases gap with
    | nil => exact hv
    | cons c gap =>
      exact ih (u := []) (List.cons_ne_nil _ _) (fun c hc => hgap c (List.mem_cons_of_mem _ hc)) rfl

end

end Text

end ModifierToggle
