import Mathlib.Data.List.Basic
import Mathlib.Tactic.Common
import ModifierToggle.Editor.LineEdit

set_option autoImplicit false

/-! # Runs of plain words

Modifiers that cannot be told from other text are only put in order within the plain words directly
before the keyword. Where these words start is found by reading the text backwards, byte by byte.
Here the run is described by what it is made of, without a direction to read it in
(`Text.PlainRun`), and the start that is found is the least one that leaves such a run with a blank
or nothing before it (`LineEdit.plainRunStart_least`).

Both halves follow the reading. What has been read is a run, with blanks and perhaps a word before
it that may still go on (`LineEdit.PlainRunRead`), and this holds byte by byte. The other way round,
any run is read to its start, and is known to belong to the result as soon as a blank, or the start
of the text, is reached (`LineEdit.length_le_plainRunLength`). -/

namespace ModifierToggle

theorem Byte.isPlainWord_of_isBlank {b : UInt8} (h : isBlank b = true) : isPlainWord b = false := by
  simp only [isBlank, Bool.or_eq_true, beq_iff_eq] at h
  rcases h with rfl | rfl <;> rfl

namespace Text

/-- Plain words with blanks between them. Behind the last word there may be blanks, too, or none. -/
inductive PlainRun : Text → Prop
  | nil : PlainRun []
  | cons {w gap run : Text} : w ≠ [] → (∀ b ∈ w, Byte.isPlainWord b = true) →
      (∀ b ∈ gap, Byte.isBlank b = true) → (gap = [] → run = []) → PlainRun run →
      PlainRun (w ++ (gap ++ run))

/-- A run of plain words that ends at offset `pos` can start at offset `r`: if it is not empty, it
    starts with the text or behind a blank. -/
structure PlainRunFrom (t : Text) (pos r : Nat) : Prop where
  le : r ≤ pos
  isRun : PlainRun (t.slice r pos)
  before : r = pos ∨ r = 0 ∨ ∃ b, t[r - 1]? = some b ∧ Byte.isBlank b = true

/-- A run of plain words with `pre` before it. -/
structure PlainRunBehind (pre run : Text) : Prop where
  isRun : PlainRun run
  before : run ≠ [] → ∀ b ∈ pre.getLast?, Byte.isBlank b = true

theorem length_of_take_eq {t pre run : Text} {pos : Nat} (hpos : pos ≤ t.length)
    (h : t.take pos = pre ++ run) : pos = pre.length + run.length := by
  rw [← List.length_append, ← h, List.length_take_of_le hpos]

theorem plainRunFrom_iff {t : Text} {pos r : Nat} (hpos : pos ≤ t.length) :
    t.PlainRunFrom pos r ↔
      ∃ pre run, t.take pos = pre ++ run ∧ pre.length = r ∧ PlainRunBehind pre run := by
  -- the byte before offset `r` is the last one of what stands before the run
  have hlast : ∀ {r : Nat}, r ≤ pos → r ≠ 0 → (t.take r).getLast? = t[r - 1]? := by
    intro r hr hzero
    rw [List.getLast?_take, if_neg hzero, List.getElem?_eq_getElem (by omega), Option.some_or]
  constructor
  · rintro ⟨hle, hrun, hbefore⟩
    refine ⟨t.take r, t.slice r pos, ?_, List.length_take_of_le (by omega), hrun, ?_⟩
    · rw [slice, ← Nat.min_eq_left hle, ← List.take_take, Nat.min_eq_left hle,
        List.take_append_drop]
    · intro hne b hb
      rcases hbefore with rfl | rfl | ⟨b', hb', hblank⟩
      · exact absurd (by simp [slice]) hne
      · cases hb
      · have hzero : r ≠ 0 := by
          rintro rfl
          cases hb
        rw [hlast hle hzero, hb'] at hb
        cases hb
        exact hblank
  · rintro ⟨pre, run, htake, rfl, hrun, hbefore⟩
    have hlength := length_of_take_eq hpos htake
    have hpre : t.take pre.length = pre := by
      have h := congrArg (List.take pre.length) htake
      rwa [List.take_take, Nat.min_eq_left (by omega), List.take_left] at h
    refine ⟨by omega, by rwa [slice, htake, List.drop_left], ?_⟩
    rcases Nat.eq_zero_or_pos run.length with hnil | hpositive
    · exact Or.inl (by omega)
    rcases Nat.eq_zero_or_pos pre.length with hzero | hne
    · exact Or.inr (Or.inl hzero)
    · have hsome : t[pre.length - 1]? = some t[pre.length - 1] :=
        List.getElem?_eq_getElem (by omega)
      have hpreLast := hlast (by omega : pre.length ≤ pos) (by omega)
      rw [hpre, hsome] at hpreLast
      have hblank := hbefore (List.ne_nil_of_length_pos hpositive) _ hpreLast
      exact Or.inr (Or.inr ⟨_, hsome, hblank⟩)

end Text

namespace LineEdit

open Text (PlainRun PlainRunBehind PlainRunFrom)

/-! ## What is found is a run -/

/-- What has been read of a text from its end, where `run` is known to belong to the run. -/
inductive PlainRunRead (run : Text) : Bool → Text → Prop
  | blanks (gap : Text) : (∀ b ∈ gap, Byte.isBlank b = true) → (gap = [] → run = []) →
      PlainRunRead run false (gap ++ run)
  | word {w gap : Text} : w ≠ [] → (∀ b ∈ w, Byte.isPlainWord b = true) →
      (∀ b ∈ gap, Byte.isBlank b = true) → (gap = [] → run = []) →
      PlainRunRead run true (w ++ (gap ++ run))

namespace PlainRunRead

variable {run read : Text} {inWord : Bool}

theorem cons_plain (h : PlainRunRead run inWord read) {b : UInt8}
    (hb : Byte.isPlainWord b = true) : PlainRunRead run true (b :: read) := by
  cases h with
  | blanks gap hblank hgap =>
    exact .word (w := [b]) (List.cons_ne_nil _ _) (by simpa using hb) hblank hgap
  | word hw hplain hblank hgap =>
    exact .word (List.cons_ne_nil b _) (List.forall_mem_cons.2 ⟨hb, hplain⟩) hblank hgap

theorem cons_blank (h : PlainRunRead run false read) {b : UInt8} (hb : Byte.isBlank b = true) :
    PlainRunRead run false (b :: read) := by
  cases h with
  | blanks gap hblank hgap =>
    exact .blanks (b :: gap) (List.forall_mem_cons.2 ⟨hb, hblank⟩)
      fun hnil => absurd hnil (List.cons_ne_nil _ _)

/-- A word that is read to its start belongs to the run. -/
theorem plainRun (h : PlainRunRead run true read) (hrun : PlainRun run) : PlainRun read := by
  cases h with
  | word hw hplain hblank hgap => exact .cons hw hplain hblank hgap hrun

/-- What is known to belong to the run has a blank before it, whatever is still to be read. -/
theorem behind (h : PlainRunRead run inWord read) (hrun : PlainRun run) (u : Text) :
    ∃ pre, u ++ read = pre ++ run ∧ PlainRunBehind pre run := by
  -- the blanks read last before the run, with all that stands before them
  have hbehind : ∀ pre gap : Text, (∀ b ∈ gap, Byte.isBlank b = true) → (gap = [] → run = []) →
      PlainRunBehind (pre ++ gap) run := by
    refine fun pre gap hblank hgap => ⟨hrun, fun hne b hb => ?_⟩
    rw [List.getLast?_append_of_ne_nil _ (fun hnil => hne (hgap hnil))] at hb
    exact hblank b (List.mem_of_getLast? hb)
  cases h with
  | blanks gap hblank hgap => exact ⟨u ++ gap, by simp, hbehind u gap hblank hgap⟩
  | @word w gap hw hplain hblank hgap =>
    exact ⟨u ++ w ++ gap, by simp, hbehind (u ++ w) gap hblank hgap⟩

end PlainRunRead

/-- The text `t` is read backwards, with `read` behind it. -/
theorem plainRunLength_read {t read run : Text} {inWord : Bool}
    (hread : PlainRunRead run inWord read) (hrun : PlainRun run) :
    ∃ pre run', t.reverse ++ read = pre ++ run' ∧
      run'.length = plainRunLength run.length read.length inWord t ∧ PlainRunBehind pre run' := by
  induction t generalizing read run inWord with
  | nil =>
    rw [plainRunLength]
    cases inWord with
    | false =>
      obtain ⟨pre, hpre, hbehind⟩ := hread.behind hrun []
      exact ⟨pre, run, hpre, rfl, hbehind⟩
    | true => exact ⟨[], read, rfl, rfl, hread.plainRun hrun, by simp⟩
  | cons b t ih =>
    have hlist : (b :: t).reverse ++ read = t.reverse ++ b :: read := by simp
    rw [plainRunLength]
    split
    · next hb =>
      rw [hlist]
      exact ih (hread.cons_plain hb) hrun
    · split
      · next hb =>
        rw [hlist]
        cases inWord with
        | true =>
          exact ih (.blanks [b] (by simpa using hb) (by simp)) (hread.plainRun hrun)
        | false => exact ih (hread.cons_blank hb) hrun
      · obtain ⟨pre, hpre, hbehind⟩ := hread.behind hrun (b :: t).reverse
        exact ⟨pre, run, hpre, rfl, hbehind⟩

/-- **The run that a text ends with.** -/
theorem exists_plainRunBehind (u : Text) :
    ∃ pre run, u = pre ++ run ∧ run.length = plainRunLength 0 0 false u.reverse ∧
      PlainRunBehind pre run := by
  have hread : PlainRunRead [] false [] := .blanks [] (by simp) id
  obtain ⟨pre, run, hu, hlength, hbehind⟩ := plainRunLength_read (t := u.reverse) hread .nil
  exact ⟨pre, run, by simpa using hu, hlength, hbehind⟩

/-! ## No longer run is one -/

theorem le_plainRunLength {accepted pos : Nat} (h : accepted ≤ pos) (inWord : Bool) (t : Text) :
    accepted ≤ plainRunLength accepted pos inWord t := by
  induction t generalizing accepted pos inWord with
  | nil =>
    rw [plainRunLength]
    split <;> omega
  | cons b t ih =>
    rw [plainRunLength]
    split
    · exact ih (by omega) true
    · split
      · refine Nat.le_trans ?_ (ih ?_ false) <;> split <;> omega
      · exact Nat.le_refl _

variable {w gap run : Text}

/-- A word is read to its start. -/
theorem plainRunLength_word (hne : w ≠ []) (hw : ∀ b ∈ w, Byte.isPlainWord b = true)
    (accepted pos : Nat) (inWord : Bool) (rest : Text) :
    plainRunLength accepted pos inWord (w ++ rest)
      = plainRunLength accepted (pos + w.length) true rest := by
  induction w generalizing pos inWord with
  | nil => exact absurd rfl hne
  | cons b w ih =>
    obtain ⟨hb, hw⟩ := List.forall_mem_cons.1 hw
    rw [List.cons_append, plainRunLength, if_pos hb]
    cases w with
    | nil => rfl
    | cons c w =>
      rw [ih (List.cons_ne_nil c w) hw, Nat.add_assoc, Nat.add_comm 1]
      rfl

theorem plainRunLength_blanks (hgap : ∀ b ∈ gap, Byte.isBlank b = true) (accepted pos : Nat)
    (rest : Text) :
    plainRunLength accepted pos false (gap ++ rest)
      = plainRunLength accepted (pos + gap.length) false rest := by
  induction gap generalizing pos with
  | nil => rfl
  | cons b gap ih =>
    obtain ⟨hb, hgap⟩ := List.forall_mem_cons.1 hgap
    rw [List.cons_append, plainRunLength, if_neg (by simp [Byte.isPlainWord_of_isBlank hb]),
      if_pos hb, if_neg (by simp), ih hgap, List.length_cons, Nat.add_assoc, Nat.add_comm 1]

/-- A word that has a blank before it belongs to the run, and so does all that was read before. -/
theorem plainRunLength_word_blank {b : UInt8} (hb : Byte.isBlank b = true) (accepted pos : Nat)
    (rest : Text) :
    plainRunLength accepted pos true (b :: rest) = plainRunLength pos (pos + 1) false rest := by
  rw [plainRunLength, if_neg (by simp [Byte.isPlainWord_of_isBlank hb]), if_pos hb, if_pos rfl]

/-- A run is read to its start, which is that of its first word. -/
theorem plainRunLength_run (hrun : PlainRun run) (hne : run ≠ []) (accepted pos : Nat)
    (rest : Text) :
    ∃ accepted', plainRunLength accepted pos false (run.reverse ++ rest)
      = plainRunLength accepted' (pos + run.length) true rest := by
  induction hrun generalizing accepted pos rest with
  | nil => exact absurd rfl hne
  | @cons w gap run hw hplain hblank hgap hrun ih =>
    have hw' : w.reverse ≠ [] := by simpa using hw
    have hplain' : ∀ b ∈ w.reverse, Byte.isPlainWord b = true := by simpa using hplain
    have hblank' : ∀ b ∈ gap.reverse, Byte.isBlank b = true := by simpa using hblank
    have hreverse : (w ++ (gap ++ run)).reverse ++ rest
        = run.reverse ++ (gap.reverse ++ (w.reverse ++ rest)) := by simp
    have hlength : pos + (w ++ (gap ++ run)).length
        = pos + run.length + gap.reverse.length + w.reverse.length := by
      simp only [List.length_append, List.length_reverse]
      omega
    rw [hreverse, hlength]
    by_cases hnil : run = []
    · -- the last word, with blanks behind it or not
      subst hnil
      refine ⟨accepted, ?_⟩
      rw [List.reverse_nil, List.nil_append, plainRunLength_blanks hblank',
        plainRunLength_word hw' hplain']
      rfl
    · obtain ⟨accepted', hread⟩ := ih hnil accepted pos (gap.reverse ++ (w.reverse ++ rest))
      rw [hread]
      cases hcons : gap.reverse with
      | nil => exact absurd (hgap (by simpa using hcons)) hnil
      | cons b blanks =>
        rw [hcons] at hblank'
        obtain ⟨hb, hblanks⟩ := List.forall_mem_cons.1 hblank'
        refine ⟨pos + run.length, ?_⟩
        rw [List.cons_append, plainRunLength_word_blank hb, plainRunLength_blanks hblanks,
          plainRunLength_word hw' hplain', List.length_cons, Nat.add_assoc _ 1, Nat.add_comm 1]

/-- **No run that a text ends with is longer than the one found.** -/
theorem length_le_plainRunLength {pre : Text} (h : PlainRunBehind pre run) :
    run.length ≤ plainRunLength 0 0 false (pre ++ run).reverse := by
  by_cases hne : run = []
  · simp [hne]
  obtain ⟨accepted, hread⟩ := plainRunLength_run h.isRun hne 0 0 pre.reverse
  rw [List.reverse_append, hread, Nat.zero_add]
  cases hpre : pre.reverse with
  | nil => exact Nat.le_refl _
  | cons b rest =>
    have hlast : pre.getLast? = some b := by
      rw [← List.head?_reverse, hpre]
      rfl
    rw [plainRunLength_word_blank (h.before hne b hlast)]
    exact le_plainRunLength (Nat.le_succ _) false rest

/-! ## Where the run starts -/

theorem plainRunLength_le {t : Text} {pos : Nat} (hpos : pos ≤ t.length) :
    plainRunLength 0 0 false (t.take pos).reverse ≤ pos := by
  obtain ⟨pre, run, hu, hlength, -⟩ := exists_plainRunBehind (t.take pos)
  have hsum := Text.length_of_take_eq hpos hu
  omega

/-- **The run of plain words starts at the least offset.** For every offset of a text, reading
    backwards from there leads to an offset from which there are only plain words with blanks
    between them and perhaps behind them, up to the offset, starting with a word; unless there are
    none, they start with the text or behind a blank. Of all offsets with these properties, it is
    the least. -/
theorem plainRunStart_least {t : Text} {pos : Nat} (hpos : pos ≤ t.length) :
    t.PlainRunFrom pos (plainRunStart t pos) ∧
      ∀ r, t.PlainRunFrom pos r → plainRunStart t pos ≤ r := by
  constructor
  · obtain ⟨pre, run, hu, hlength, hbehind⟩ := exists_plainRunBehind (t.take pos)
    have hsum := Text.length_of_take_eq hpos hu
    refine (Text.plainRunFrom_iff hpos).2 ⟨pre, run, hu, ?_, hbehind⟩
    rw [plainRunStart, ← hlength]
    omega
  · intro r hr
    obtain ⟨pre, run, hu, rfl, hbehind⟩ := (Text.plainRunFrom_iff hpos).1 hr
    have hsum := Text.length_of_take_eq hpos hu
    have hle := length_le_plainRunLength hbehind
    rw [plainRunStart, hu]
    omega

/-- The word glued to a bracket is not part of the run, nor is anything before it. The offset is
    inside a word. -/
theorem plainRunStart_least_glued :
    let t := utf8 "x (a b_1 \t static inline f"
    22 ≤ t.length ∧ plainRunStart t 22 = 5 ∧ t.PlainRunFrom 22 5 ∧
      ∀ r, t.PlainRunFrom 22 r → 5 ≤ r := by
  intro t
  have hpos : 22 ≤ t.length := by decide
  have hstart : plainRunStart t 22 = 5 := by decide
  exact ⟨hpos, hstart, hstart ▸ plainRunStart_least hpos⟩

end LineEdit

end ModifierToggle
