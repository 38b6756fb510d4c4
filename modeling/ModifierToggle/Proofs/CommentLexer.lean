import ModifierToggle.Proofs.CodeLines
import ModifierToggle.Proofs.CommentReading
import ModifierToggle.Proofs.LineFrame

set_option autoImplicit false

/-! # Comments as a lexer sees them

Which bytes of a file are comments is decided by a small automaton that reads the lines byte by
byte, with one byte of look-ahead on the same line. It knows nothing of offsets, of searching for
the end of a comment, or of overwriting with spaces.

Removing comments line by line shows what the automaton sees (`stripLine_eq_view`): bytes of code as
they are, those of block comments as spaces, and nothing from the point where the line enters the
comment in which it ends. `View` says this for each byte, and fixes the code of a line. -/

namespace ModifierToggle.Comment

/-! ## The automaton -/

/-- Where the lexer is on a line: in code, inside the two bytes that open a block comment, in a
    block comment, inside the two bytes that close it, or in a comment up to the end of the line. -/
inductive LexState where
  | code
  | opening
  | block
  | closing
  | line
  deriving Repr, DecidableEq

/-- What a byte is part of. -/
inductive Place where
  | code
  | block
  | line
  deriving Repr, DecidableEq

namespace LexState

/-- The state after a byte, seen together with the one that follows it on the line. -/
def next : LexState → UInt8 → Option UInt8 → LexState
  | .code, b, ahead =>
    if b = Byte.slash ∧ ahead = some Byte.slash then .line
    else if b = Byte.slash ∧ ahead = some Byte.star then .opening
    else .code
  | .opening, _, _ => .block
  | .block, b, ahead => if b = Byte.star ∧ ahead = some Byte.slash then .closing else .block
  | .closing, _, _ => .code
  | .line, _, _ => .line

/-- What a byte is part of, by the states before and after it. -/
def place : LexState → LexState → Place
  | .code, .code => .code
  | _, .line => .line
  | _, _ => .block

/-- The state before byte `i` of a line that is entered in the given state, and the state at the end
    of the line when there is no such byte. -/
def stateAt : LexState → Text → Nat → LexState
  | st, _, 0 => st
  | st, [], _ + 1 => st
  | st, b :: rest, i + 1 => (st.next b rest.head?).stateAt rest i

/-- What byte `i` of a line is part of. -/
def placeAt (st : LexState) (x : Text) (i : Nat) : Place :=
  (st.stateAt x i).place (st.stateAt x (i + 1))

/-- Whether a block comment is open at the end of a line. -/
def opensNext (st : LexState) (x : Text) : Bool := st.stateAt x x.length == .block

/-- The state in which a line is entered: only block comments go on there. -/
def entering (inBlock : Bool) : LexState := if inBlock then .block else .code

/-- The state in which the line after some lines is entered. -/
def afterLines (st : LexState) (lines : List Text) : LexState :=
  lines.foldl (fun st x => entering (st.opensNext x)) st

end LexState

/-- The code of a line as the lexer has it. -/
structure View (st : LexState) (x code : Text) : Prop where
  /-- Code keeps offsets. -/
  length_le : code.length ≤ x.length
  /-- Bytes of code are shown, and those of block comments are spaces. -/
  byte : ∀ i < code.length,
    (st.placeAt x i = .code ∧ code[i]? = x[i]?) ∨
      (st.placeAt x i = .block ∧ code[i]? = some Byte.space)
  /-- All else is in comments. -/
  hidden : ∀ i, code.length ≤ i → i < x.length → st.placeAt x i ≠ .code
  /-- The code goes up to the last point outside comments. -/
  reaches : code ≠ [] → st.stateAt x code.length = .code
  last : ∀ i, code.length < i → i ≤ x.length → st.stateAt x i ≠ .code

variable {st : LexState} {x code : Text}

/-! ## How a line is read on -/

namespace LexState

@[simp] theorem next_opening (b : UInt8) (ahead : Option UInt8) :
    next .opening b ahead = .block := rfl

@[simp] theorem next_closing (b : UInt8) (ahead : Option UInt8) :
    next .closing b ahead = .code := rfl

@[simp] theorem next_line (b : UInt8) (ahead : Option UInt8) : next .line b ahead = .line := rfl

@[simp] theorem stateAt_zero (st : LexState) (x : Text) : st.stateAt x 0 = st := by
  cases x <;> rfl

@[simp] theorem stateAt_cons_succ (st : LexState) (b : UInt8) (x : Text) (i : Nat) :
    st.stateAt (b :: x) (i + 1) = (st.next b x.head?).stateAt x i := rfl

@[simp] theorem placeAt_cons_zero (st : LexState) (b : UInt8) (x : Text) :
    st.placeAt (b :: x) 0 = st.place (st.next b x.head?) := by
  simp [placeAt]

@[simp] theorem placeAt_cons_succ (st : LexState) (b : UInt8) (x : Text) (i : Nat) :
    st.placeAt (b :: x) (i + 1) = (st.next b x.head?).placeAt x i := rfl

@[simp] theorem opensNext_cons (st : LexState) (b : UInt8) (x : Text) :
    st.opensNext (b :: x) = (st.next b x.head?).opensNext x := rfl

/-- A line is read on from any point as from its start. -/
theorem stateAt_add (st : LexState) (x : Text) (i j : Nat) :
    st.stateAt x (i + j) = (st.stateAt x i).stateAt (x.drop i) j := by
  induction i generalizing st x with
  | zero => simp
  | succ i ih =>
    cases x with
    | nil => cases j <;> rfl
    | cons b x =>
      rw [Nat.add_right_comm]
      exact ih _ x

/-- A comment up to the end of the line does not end before. -/
theorem stateAt_line (x : Text) (i : Nat) : line.stateAt x i = .line := by
  induction x generalizing i with
  | nil => cases i <;> rfl
  | cons b x ih =>
    cases i with
    | zero => rfl
    | succ i => exact ih i

theorem stateAt_of_placeAt_eq_line {i j : Nat} (h : st.placeAt x i = .line) (hij : i < j) :
    st.stateAt x j = .line := by
  have hnext : st.stateAt x (i + 1) = .line := by
    unfold placeAt at h
    generalize st.stateAt x i = before at h
    generalize st.stateAt x (i + 1) = after at h
    cases after with
    | line => rfl
    | _ => cases before <;> cases h
  obtain ⟨k, rfl⟩ := Nat.exists_eq_add_of_lt hij
  rw [Nat.add_right_comm, stateAt_add, hnext, stateAt_line]

/-- A byte that the lexer enters and leaves in code. -/
theorem placeAt_eq_code {i : Nat} :
    st.placeAt x i = .code ↔ st.stateAt x i = .code ∧ st.stateAt x (i + 1) = .code := by
  unfold placeAt
  generalize st.stateAt x i = before
  generalize st.stateAt x (i + 1) = after
  cases before <;> cases after <;> simp [place]

end LexState

/-! ## What is shown of a line -/

/-- All bytes of a line, with spaces for those of block comments. -/
def shown : LexState → Text → Text
  | _, [] => []
  | st, b :: rest =>
    (if st.place (st.next b rest.head?) = .block then Byte.space else b)
      :: shown (st.next b rest.head?) rest

/-- The last point of a line at which the lexer is in code. -/
def lastCode? : LexState → Text → Option Nat
  | st, [] => if st = .code then some 0 else none
  | st, b :: rest =>
    ((lastCode? (st.next b rest.head?) rest).map (· + 1)).or (if st = .code then some 0 else none)

/-- The code of a line. -/
def view (st : LexState) (x : Text) : Text := (shown st x).take ((lastCode? st x).getD 0)

theorem length_shown (st : LexState) (x : Text) : (shown st x).length = x.length := by
  induction x generalizing st with
  | nil => rfl
  | cons b x ih => simp [shown, ih]

theorem getElem?_shown (st : LexState) (x : Text) (i : Nat) :
    (shown st x)[i]? = x[i]?.map fun b => if st.placeAt x i = .block then Byte.space else b := by
  induction x generalizing st i with
  | nil => rfl
  | cons b x ih =>
    cases i with
    | zero => simp [shown]
    | succ i => exact ih (st.next b x.head?) i

theorem lastCode?_eq_none (h : lastCode? st x = none) {i : Nat} (hi : i ≤ x.length) :
    st.stateAt x i ≠ .code := by
  induction x generalizing st i with
  | nil =>
    rw [lastCode?] at h
    intro hcode
    obtain rfl : i = 0 := Nat.le_zero.1 hi
    rw [LexState.stateAt_zero] at hcode
    rw [if_pos hcode] at h
    cases h
  | cons b x ih =>
    rw [lastCode?, Option.or_eq_none_iff, Option.map_eq_none_iff] at h
    obtain ⟨hrest, hfirst⟩ := h
    cases i with
    | zero =>
      intro hcode
      rw [LexState.stateAt_zero] at hcode
      rw [if_pos hcode] at hfirst
      cases hfirst
    | succ i => exact ih hrest (Nat.le_of_succ_le_succ hi)

theorem lastCode?_eq_some {n : Nat} (h : lastCode? st x = some n) :
    n ≤ x.length ∧ st.stateAt x n = .code ∧
      ∀ i, n < i → i ≤ x.length → st.stateAt x i ≠ .code := by
  induction x generalizing st n with
  | nil =>
    rw [lastCode?] at h
    split at h
    · next hst =>
      obtain rfl := Option.some.inj h
      exact ⟨Nat.le_refl _, hst, fun i hi hle => absurd hle (Nat.not_le.2 hi)⟩
    · cases h
  | cons b x ih =>
    rw [lastCode?] at h
    cases hrest : lastCode? (st.next b x.head?) x with
    | some m =>
      -- the point lies behind the first byte
      rw [hrest] at h
      obtain rfl : m + 1 = n := Option.some.inj h
      obtain ⟨hle, hcode, hlast⟩ := ih hrest
      refine ⟨Nat.succ_le_succ hle, hcode, fun i hi hle => ?_⟩
      obtain ⟨j, rfl⟩ := Nat.exists_eq_add_of_lt hi
      exact hlast _ (by omega) (by simpa using hle)
    | none =>
      rw [hrest] at h
      split at h
      · next hst =>
        obtain rfl : 0 = n := Option.some.inj h
        refine ⟨Nat.zero_le _, by simpa using hst, fun i hi hle => ?_⟩
        obtain ⟨j, rfl⟩ := Nat.exists_eq_add_of_lt hi
        exact lastCode?_eq_none hrest (by simpa using hle)
      · cases h

/-- In code there is always such a point. -/
theorem lastCode?_code (x : Text) : ∃ n, lastCode? .code x = some n := by
  cases hlast : lastCode? .code x with
  | some n => exact ⟨n, rfl⟩
  | none => exact absurd (LexState.stateAt_zero .code x) (lastCode?_eq_none hlast (Nat.zero_le _))

theorem lastCode?_line (x : Text) : lastCode? .line x = none := by
  cases hlast : lastCode? .line x with
  | none => rfl
  | some n =>
    have hcode := (lastCode?_eq_some hlast).2.1
    rw [LexState.stateAt_line] at hcode
    cases hcode

/-! ## The view of a line -/

/-- What is shown up to the last point in code is the code of a line. -/
theorem view_spec (st : LexState) (x : Text) : View st x (view st x) := by
  cases hlast : lastCode? st x with
  | none =>
    have hnil : view st x = [] := by simp [view, hlast]
    have hcode := @lastCode?_eq_none st x hlast
    rw [hnil]
    refine ⟨Nat.zero_le _, fun i hi => absurd hi (Nat.not_lt_zero i), fun i _ hi hplace => ?_,
      fun h => absurd rfl h, fun i _ hi => hcode hi⟩
    exact hcode (Nat.le_of_lt hi) (LexState.placeAt_eq_code.1 hplace).1
  | some n =>
    obtain ⟨hle, hcode, hafter⟩ := lastCode?_eq_some hlast
    have hview : view st x = (shown st x).take n := by simp [view, hlast]
    have hlength : (view st x).length = n := by
      rw [hview, List.length_take, length_shown, Nat.min_eq_left hle]
    refine ⟨hlength ▸ hle, fun i hi => ?_, fun i hi hlt hplace => ?_, fun _ => hlength ▸ hcode,
      fun i hi hle => hafter i (hlength ▸ hi) hle⟩
    · have hbyte : (view st x)[i]?
          = x[i]?.map fun b => if st.placeAt x i = .block then Byte.space else b := by
        rw [hview, List.getElem?_take_of_lt (hlength ▸ hi), getElem?_shown]
      have hsome : ∃ b, x[i]? = some b :=
        ⟨_, List.getElem?_eq_getElem (Nat.lt_of_lt_of_le (hlength ▸ hi) hle)⟩
      obtain ⟨b, hb⟩ := hsome
      cases hplace : st.placeAt x i with
      | code => exact Or.inl ⟨rfl, by simp [hbyte, hplace]⟩
      | block => exact Or.inr ⟨rfl, by simp [hbyte, hplace, hb]⟩
      | line =>
        -- the lexer would not come back to code
        rw [LexState.stateAt_of_placeAt_eq_line hplace (hlength ▸ hi)] at hcode
        cases hcode
    · rw [hlength] at hi
      exact hafter (i + 1) (Nat.lt_succ_of_le hi) hlt (LexState.placeAt_eq_code.1 hplace).2

theorem View.length_unique {code' : Text} (h : View st x code) (h' : View st x code') :
    code.length ≤ code'.length := by
  by_contra hlt
  rw [Nat.not_le] at hlt
  have hne : code ≠ [] := by
    rintro rfl
    exact absurd hlt (Nat.not_lt_zero _)
  exact h'.last _ hlt h.length_le (h.reaches hne)

/-- A line has one code only. -/
theorem View.unique {code' : Text} (h : View st x code) (h' : View st x code') : code = code' := by
  have hlength : code.length = code'.length :=
    Nat.le_antisymm (h.length_unique h') (h'.length_unique h)
  refine List.ext_getElem? fun i => ?_
  by_cases hi : i < code.length
  · rcases h.byte i hi, h'.byte i (hlength ▸ hi) with
      ⟨⟨hplace, hbyte⟩ | ⟨hplace, hbyte⟩, ⟨hplace', hbyte'⟩ | ⟨hplace', hbyte'⟩⟩
    · rw [hbyte, hbyte']
    · rw [hplace] at hplace'; cases hplace'
    · rw [hplace] at hplace'; cases hplace'
    · rw [hbyte, hbyte']
  · rw [List.getElem?_eq_none (Nat.not_lt.1 hi), List.getElem?_eq_none (hlength ▸ Nat.not_lt.1 hi)]

theorem view_iff : View st x code ↔ code = view st x :=
  ⟨fun h => h.unique (view_spec st x), fun h => h ▸ view_spec st x⟩

/-! ## Removing comments -/

/-- The state of the lexer that a mode stands for. -/
def Mode.state : Mode → LexState
  | .code => .code
  | .block _ => .block

theorem next_code {b : UInt8} (h : ¬ Opens b x) : LexState.next .code b x.head? = .code := by
  rw [LexState.next, if_neg fun hline => h ⟨hline.1, Or.inl hline.2⟩,
    if_neg fun hblock => h ⟨hblock.1, Or.inr hblock.2⟩]

theorem next_block {b : UInt8} (h : ¬ Closes b x) : LexState.next .block b x.head? = .block :=
  if_neg h

theorem opensNext_line (x : Text) : LexState.opensNext .line x = false := by
  rw [LexState.opensNext, LexState.stateAt_line]
  rfl

/-- **Removing comments shows what the lexer sees.** The bytes of an open comment that came before
    are shown if the comment is closed on the line. -/
theorem strip_eq (m : Mode) (x : Text) :
    strip m x
      = (((lastCode? m.state x).map fun n =>
            List.replicate m.width Byte.space ++ (shown m.state x).take n).getD [],
          m.state.opensNext x) := by
  fun_induction strip m x with
  | case1 => rfl
  | case2 rest =>
    have hnext : LexState.next .code 0x2F (some 0x2F) = .line := by decide
    simp [Mode.state, Mode.width, lastCode?, hnext, lastCode?_line, opensNext_line]
  | case3 rest ih =>
    have hnext : LexState.next .code 0x2F (some 0x2A) = .opening := by decide
    rw [ih]
    cases hlast : lastCode? .block rest with
    | none => simp [Mode.state, Mode.width, lastCode?, hnext, hlast]
    | some n =>
      simp [Mode.state, Mode.width, lastCode?, shown, hnext, LexState.place, hlast]
  | case4 b rest hslash hstar code opened hrest ih =>
    have hopens : ¬ Opens b rest := by
      rintro ⟨rfl, hhead | hhead⟩
      · obtain ⟨tail, rfl⟩ := List.head?_eq_some_iff.1 hhead
        exact hslash tail rfl rfl
      · obtain ⟨tail, rfl⟩ := List.head?_eq_some_iff.1 hhead
        exact hstar tail rfl rfl
    obtain ⟨n, hlast⟩ := lastCode?_code rest
    rw [hrest] at ih
    obtain ⟨rfl, rfl⟩ := Prod.mk.inj ih
    simp [Mode.state, Mode.width, lastCode?, shown, next_code hopens, LexState.place, hlast]
  | case5 width => rfl
  | case6 width rest code opened hrest ih =>
    have hnext : LexState.next .block 0x2A (some 0x2F) = .closing := by decide
    obtain ⟨n, hlast⟩ := lastCode?_code rest
    rw [hrest] at ih
    obtain ⟨rfl, rfl⟩ := Prod.mk.inj ih
    simp [Mode.state, Mode.width, lastCode?, shown, hnext, LexState.place, hlast,
      List.replicate_succ']
  | case7 width b rest hcloses ih =>
    have hcloses' : ¬ Closes b rest := by
      rintro ⟨rfl, hhead⟩
      obtain ⟨tail, rfl⟩ := List.head?_eq_some_iff.1 hhead
      exact hcloses tail rfl rfl
    rw [ih]
    cases hlast : lastCode? .block rest with
    | none => simp [Mode.state, lastCode?, next_block hcloses', hlast]
    | some n =>
      simp [Mode.state, Mode.width, lastCode?, shown, next_block hcloses', LexState.place, hlast,
        List.replicate_succ']

theorem stripLine_eq_view (inBlock : Bool) (x : Text) :
    stripLine inBlock x
      = (view (.entering inBlock) x, (LexState.entering inBlock).opensNext x) := by
  cases inBlock with
  | false =>
    show strip .code x = _
    obtain ⟨n, hlast⟩ := lastCode?_code x
    rw [strip_eq]
    simp [Mode.state, Mode.width, LexState.entering, view, hlast]
  | true =>
    show strip (.block 0) x = _
    rw [strip_eq]
    cases hlast : lastCode? .block x <;>
      simp [Mode.state, Mode.width, LexState.entering, view, hlast]

/-! ## Lines one after the other -/

theorem openAfter_append (inBlock : Bool) (above lines : List Text) :
    openAfter inBlock (above ++ lines) = openAfter (openAfter inBlock above) lines := by
  induction above generalizing inBlock with
  | nil => rfl
  | cons x above ih => exact ih _

/-- The lexer enters each line as it is entered when comments are removed. -/
theorem afterLines_eq (inBlock : Bool) (lines : List Text) :
    (LexState.entering inBlock).afterLines lines = .entering (openAfter inBlock lines) := by
  induction lines generalizing inBlock with
  | nil => rfl
  | cons x lines ih =>
    have hopened : (LexState.entering inBlock).opensNext x = (stripLine inBlock x).2 := by
      rw [stripLine_eq_view]
    rw [LexState.afterLines, List.foldl_cons, hopened]
    exact ih _

theorem getElem?_stripLines (inBlock : Bool) (lines : List Text) (n : Nat) :
    (stripLines inBlock lines)[n]?
      = lines[n]?.map fun x => (stripLine (openAfter inBlock (lines.take n)) x).1 := by
  induction lines generalizing inBlock n with
  | nil => rfl
  | cons x lines ih =>
    cases n with
    | zero => rfl
    | succ n => exact ih _ n

end ModifierToggle.Comment

namespace ModifierToggle.Buffer

open Comment

variable (b : Buffer)

/-- The lines from `first` up to the one above `n`, empty where the text has none. -/
def linesAbove (b : Buffer) (first n : Int) : List Text :=
  (List.range (n - first).toNat).map fun (k : Nat) => b.line (first + k)

theorem linesAbove_self (first n : Int) (h : n ≤ first) : b.linesAbove first n = [] := by
  rw [linesAbove, Int.toNat_eq_zero.2 (by omega)]
  rfl

theorem linesAbove_succ (first : Int) (k : Nat) :
    b.linesAbove first (first + (k + 1 : Nat))
      = b.linesAbove first (first + k) ++ [b.line (first + k)] := by
  have hk : (first + (k + 1 : Nat) - first).toNat = k + 1 := by omega
  have hk' : (first + k - first).toNat = k := by omega
  rw [linesAbove, linesAbove, hk, hk', List.range_succ, List.map_append]
  rfl

theorem openAfter_blank (inBlock : Bool) : openAfter inBlock [[]] = inBlock := by
  cases inBlock <;> rfl

/-- Reading one line on, in a text that may have no such line. -/
theorem openAfter_line {first n : Int} (h : first ≤ n) :
    openAfter (openAfter false ((b.text.lines.take n.toNat).drop first.toNat)) [b.line n]
      = openAfter false ((b.text.lines.take (n + 1).toNat).drop first.toNat) := by
  rw [line_eq]
  split
  · rw [openAfter_blank, show n.toNat = 0 by omega, show (n + 1).toNat = 0 by omega]
  · have hsucc : (n + 1).toNat = n.toNat + 1 := by omega
    rw [hsucc, List.take_add_one]
    cases hline : b.text.lines[n.toNat]? with
    | none => rw [Option.getD_none, openAfter_blank, Option.toList_none, List.append_nil]
    | some x =>
      have hlt := (List.getElem?_eq_some_iff.1 hline).1
      rw [Option.getD_some, ← openAfter_append, List.drop_append_of_le_length]
      · rfl
      · rw [List.length_take, Nat.min_eq_left (Nat.le_of_lt hlt)]
        omega

theorem openAfter_linesAbove (first : Int) (k : Nat) :
    openAfter false (b.linesAbove first (first + k))
      = openAfter false ((b.text.lines.take (first + k).toNat).drop first.toNat) := by
  induction k with
  | zero =>
    rw [b.linesAbove_self first _ (by omega),
      List.drop_eq_nil_of_le (Nat.le_trans (List.length_take_le _ _) (by omega))]
  | succ k ih =>
    have hsucc : first + (k + 1 : Nat) = first + k + 1 := by omega
    rw [linesAbove_succ, openAfter_append, ih, b.openAfter_line (by omega), hsucc]

/-- A code line has no more code than text. -/
theorem length_code_le {b : Buffer} {span : Span} {l : CodeLine} (hl : l ∈ b.codeLines span) :
    l.code.length ≤ l.text.length := by
  obtain ⟨above, below, hsplit⟩ := List.append_of_mem hl
  rw [(codeLines_split hsplit).2.2.2, stripLine_eq_view]
  exact (view_spec _ _).length_le

/-- The code of a line is what is left of it after the lines of the range above have been read. -/
theorem code_eq_stripLine (first n : Int) :
    b.code first n = (stripLine (openAfter false (b.linesAbove first n)) (b.line n)).1 := by
  have hopened : openAfter false (b.linesAbove first n)
      = openAfter false ((b.text.lines.take n.toNat).drop (min first n).toNat) := by
    rcases Int.le_total first n with hle | hle
    · obtain ⟨k, rfl⟩ := Int.le.dest hle
      rw [openAfter_linesAbove, Int.min_eq_left hle]
    · rw [b.linesAbove_self first n hle, Int.min_eq_right hle,
        List.drop_eq_nil_of_le (List.length_take_le _ _)]
  have hblank : ∀ inBlock, (stripLine inBlock []).1 = [] := by
    intro inBlock
    cases inBlock <;> rfl
  rw [hopened, line_eq]
  split
  · next hn =>
    have hnone : b.codeLines ⟨min first n, n⟩ = [] := by
      rw [codeLines_eq, Int.toNat_of_nonpos (by omega : n + 1 ≤ 0), List.take_zero, List.drop_nil]
      rfl
    rw [code, hnone, hblank]
    rfl
  · next hn =>
    cases hline : b.text.lines[n.toNat]? with
    | none =>
      -- no code line has that number
      rw [Option.getD_none, hblank, code]
      split
      · next l hl =>
        obtain ⟨above, hlines⟩ := List.getLast?_eq_some_iff.1 hl
        have htext := (codeLines_split hlines).2.1
        split
        · next hnumber =>
          rw [show l.number = n.toNat by omega, hline] at htext
          cases htext
        · rfl
      · rfl
    | some x =>
      have hlt := (List.getElem?_eq_some_iff.1 hline).1
      have hlength : (b.text.lines.take n.toNat).length = n.toNat := by
        rw [List.length_take, Nat.min_eq_left (Nat.le_of_lt hlt)]
      have htexts : (b.text.lines.take (n + 1).toNat).drop (min first n).toNat
          = (b.text.lines.take n.toNat).drop (min first n).toNat ++ [x] := by
        rw [show (n + 1).toNat = n.toNat + 1 by omega, List.take_add_one, hline,
          List.drop_append_of_le_length (by omega)]
        rfl
      have hnumber : (min first n).toNat
          + ((b.text.lines.take n.toNat).drop (min first n).toNat).length = n.toNat := by
        rw [List.length_drop, hlength]
        omega
      have hlines : ∃ above, b.codeLines ⟨min first n, n⟩ = above ++ [⟨n.toNat, x, (stripLine
          (openAfter false ((b.text.lines.take n.toNat).drop (min first n).toNat)) x).1⟩] := by
        rw [codeLines_eq, htexts, CodeLine.ofLines_append, CodeLine.ofLines_cons, hnumber]
        exact ⟨_, rfl⟩
      obtain ⟨above, hlines⟩ := hlines
      rw [code, hlines, List.getLast?_concat]
      simp only [Int.toNat_of_nonneg (Int.not_lt.1 hn), if_true, Option.getD_some]

end ModifierToggle.Buffer

namespace ModifierToggle.Comment

/-- **Removing comments line by line is one lexer over all lines.** For any lines, and whether or
    not a comment is open before them, the code of each line is the one text that shows it as the
    lexer has it, and a comment is left open just if the lexer is in a block comment at the end of
    the line. So the code of a line of a buffer is what the lexer, started in code on any line, has
    of it. -/
theorem stripLines_lexes :
    (∀ (inBlock : Bool) (lines : List Text),
      (stripLines inBlock lines).length = lines.length ∧
      ∀ (n : Nat) (x : Text), lines[n]? = some x →
        let st := (LexState.entering inBlock).afterLines (lines.take n)
        ∃ code, (stripLines inBlock lines)[n]? = some code ∧
          (∀ code', View st x code' ↔ code' = code) ∧
          stripLine (openAfter inBlock (lines.take n)) x = (code, st.opensNext x)) ∧
    ∀ (b : Buffer) (first n : Int) (code : Text),
      View (LexState.code.afterLines (b.linesAbove first n)) (b.line n) code
        ↔ code = b.code first n := by
  constructor
  · intro inBlock lines
    constructor
    · induction lines generalizing inBlock with
      | nil => rfl
      | cons x lines ih => exact congrArg Nat.succ (ih _)
    · intro n x hx st
      have hst : st = .entering (openAfter inBlock (lines.take n)) := afterLines_eq inBlock _
      refine ⟨view st x, ?_, fun _ => view_iff, ?_⟩
      · rw [getElem?_stripLines, hx, Option.map_some, stripLine_eq_view, ← hst]
      · rw [stripLine_eq_view, ← hst]
  · intro b first n code
    have hst : LexState.code.afterLines (b.linesAbove first n)
        = .entering (openAfter false (b.linesAbove first n)) := afterLines_eq false _
    rw [Buffer.code_eq_stripLine, stripLine_eq_view, ← hst]
    exact view_iff

end ModifierToggle.Comment
