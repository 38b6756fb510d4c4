import Mathlib.Data.List.Basic
import Mathlib.Tactic.Common
import ModifierToggle.Text.Scanner

set_option autoImplicit false

/-! # Scanning a text

A splitter says what is at the front of a text, and everything else is made of that: the tokens of a
text that is at hand as a whole, and those that a scanner finds in its buffer. Nothing is assumed of
the splitter but that it finds a token in every text that ends, and that before the end it finds the
same one or asks for more (`Splitter.Finds`); that a cut behind a token keeps the tokens before it
(`Splitter.Lawful`) is assumed where texts are cut.

A scanner whose buffer is full of text is *fresh*. It takes the tokens that are ready in its buffer,
and what comes then is a fresh scanner again: behind these tokens
(`Scanner.countFrom_fresh_of_seam`), or with a larger buffer if there are none
(`Scanner.countFrom_fresh_of_seam_eq_zero`). Text that leaves room in the buffer is scanned as a
whole (`Scanner.countFrom_fresh_of_lt`). -/

namespace ModifierToggle.Splitter

/-- The offset at which token `j` of a text starts, and the token before it ends. -/
def start (split : Splitter) : Text → Nat → Nat
  | _, 0 => 0
  | t, j + 1 =>
    match split.scan t true with
    | .token n => n + split.start (t.drop n) j
    | _ => 0

variable (split : Splitter)

/-- What is assumed of a splitter: it finds tokens. -/
structure Finds : Prop where
  /-- There is no token in an empty text. -/
  empty : ∀ atEnd, split.scan [] atEnd = .more
  /-- At the end of the text, there is a token in any other one, of a byte or more and no more than
      there are. -/
  atEnd : ∀ t, t ≠ [] → ∃ n, split.scan t true = .token n ∧ 0 < n ∧ n ≤ t.length
  /-- Before the end, it is the same token that is found, or more is asked for. -/
  beforeEnd : ∀ t, split.scan t false = .more ∨ split.scan t false = split.scan t true

/-- What is assumed of a splitter where texts are cut. -/
structure Lawful : Prop extends Finds split where
  /-- A text that is cut where a token ends has the tokens before the cut. -/
  cut : ∀ t j, split.sizes (t.take (split.start t j)) = (split.sizes t).take j

/-- Wherever a text is cut behind its first token, that token stays. -/
def Local : Prop :=
  ∀ t n k, split.scan t true = .token n → n ≤ k → split.scan (t.take k) true = .token n

variable {split}

/-! ## The tokens of a text -/

theorem sizes_nil : split.sizes [] = [] := by
  rw [sizes]

theorem sizes_of_token {t : Text} {n : Nat} (ht : t ≠ []) (hn : split.scan t true = .token n)
    (hpos : 0 < n) : split.sizes t = n :: split.sizes (t.drop n) := by
  obtain ⟨b, rest, rfl⟩ := List.exists_cons_of_ne_nil ht
  obtain ⟨m, rfl⟩ := Nat.exists_eq_succ_of_ne_zero (Nat.ne_of_gt hpos)
  rw [sizes, hn]
  rfl

theorem start_of_token {t : Text} {n : Nat} (hn : split.scan t true = .token n) (j : Nat) :
    split.start t (j + 1) = n + split.start (t.drop n) j := by
  rw [start, hn]

theorem start_zero (t : Text) : split.start t 0 = 0 := by
  rw [start]

theorem take_start_ne_nil {t : Text} {n : Nat} (ht : t ≠ []) (hn : split.scan t true = .token n)
    (hpos : 0 < n) (j : Nat) : t.take (split.start t (j + 1)) ≠ [] := by
  have hlength := List.length_pos_iff.2 ht
  rw [start_of_token hn, ← List.length_pos_iff, List.length_take]
  omega

/-- An offset at which no token starts or ends lies inside of one. -/
theorem exists_token_around {t : Text} {s m : Nat} (hs : s ≤ split.start t m)
    (hne : ∀ j, s ≠ split.start t j) :
    ∃ i < m, split.start t i < s ∧ s < split.start t (i + 1) := by
  induction m with
  | zero =>
    rw [start_zero] at hs
    exact absurd (Nat.le_zero.1 hs) (start_zero t ▸ hne 0)
  | succ m ih =>
    rcases Nat.lt_or_ge (split.start t m) s with hlt | hge
    · exact ⟨m, Nat.lt_succ_self m, hlt, Nat.lt_of_le_of_ne hs (hne _)⟩
    · obtain ⟨i, hi, haround⟩ := ih hge
      exact ⟨i, Nat.lt_succ_of_lt hi, haround⟩

namespace Finds

variable (h : split.Finds)

include h

/-- A text is empty, or a token with a text behind it. -/
theorem induction {motive : Text → Prop} (nil : motive [])
    (token : ∀ t n, t ≠ [] → split.scan t true = .token n → 0 < n → n ≤ t.length →
      motive (t.drop n) → motive t) (t : Text) : motive t := by
  induction hlength : t.length using Nat.strongRecOn generalizing t with
  | _ length ih =>
    by_cases ht : t = []
    · rw [ht]
      exact nil
    · obtain ⟨n, hn, hpos, hle⟩ := h.atEnd t ht
      refine token t n ht hn hpos hle (ih _ ?_ _ rfl)
      rw [List.length_drop]
      omega

theorem start_nil (j : Nat) : split.start [] j = 0 := by
  cases j with
  | zero => rw [start]
  | succ j => rw [start, h.empty]

theorem start_le_length (t : Text) (j : Nat) : split.start t j ≤ t.length := by
  induction t using h.induction generalizing j with
  | nil => exact Nat.le_of_eq (h.start_nil j)
  | token t n ht hn hpos hle ih =>
    cases j with
    | zero => rw [start_zero]; exact Nat.zero_le _
    | succ j =>
      have hrest := ih j
      rw [List.length_drop] at hrest
      rw [start_of_token hn]
      omega

/-- Behind some tokens there are the other ones. -/
theorem sizes_drop (t : Text) (j : Nat) :
    split.sizes (t.drop (split.start t j)) = (split.sizes t).drop j := by
  induction t using h.induction generalizing j with
  | nil => rw [List.drop_nil, sizes_nil, List.drop_nil]
  | token t n ht hn hpos hle ih =>
    cases j with
    | zero => rw [start_zero, List.drop_zero, List.drop_zero]
    | succ j =>
      rw [start_of_token hn, ← List.drop_drop, ih, sizes_of_token ht hn hpos, List.drop_succ_cons]

theorem count_drop (t : Text) (j : Nat) :
    split.count (t.drop (split.start t j)) = split.count t - j := by
  rw [count, h.sizes_drop, List.length_drop, ← count]

theorem start_add (t : Text) (i j : Nat) :
    split.start t (i + j) = split.start t i + split.start (t.drop (split.start t i)) j := by
  induction t using h.induction generalizing i with
  | nil => rw [h.start_nil, h.start_nil, List.drop_nil, h.start_nil]
  | token t n ht hn hpos hle ih =>
    cases i with
    | zero => rw [start_zero, List.drop_zero, Nat.zero_add, Nat.zero_add]
    | succ i =>
      rw [Nat.add_right_comm, start_of_token hn, start_of_token hn, ih, ← List.drop_drop,
        Nat.add_assoc]

theorem start_le_of_le (t : Text) {i j : Nat} (hij : i ≤ j) :
    split.start t i ≤ split.start t j := by
  obtain ⟨k, rfl⟩ := Nat.exists_eq_add_of_le hij
  rw [h.start_add]
  exact Nat.le_add_right _ _

theorem start_of_count_le {t : Text} {j : Nat} (hj : split.count t ≤ j) :
    split.start t j = t.length := by
  induction t using h.induction generalizing j with
  | nil => exact h.start_nil j
  | token t n ht hn hpos hle ih =>
    rw [count, sizes_of_token ht hn hpos, List.length_cons] at hj
    obtain ⟨j, rfl⟩ := Nat.exists_eq_succ_of_ne_zero (by omega : j ≠ 0)
    rw [start_of_token hn, ih (Nat.le_of_succ_le_succ hj), List.length_drop]
    omega

/-- Wherever a text is cut, the tokens before the cut stay. -/
theorem start_take_of_le (hlocal : split.Local) {t : Text} {j k : Nat}
    (hk : split.start t j ≤ k) : split.start (t.take k) j = split.start t j := by
  induction t using h.induction generalizing j k with
  | nil => rw [List.take_nil]
  | token t n ht hn hpos hle ih =>
    cases j with
    | zero => rw [start_zero, start_zero]
    | succ j =>
      rw [start_of_token hn] at hk ⊢
      rw [start_of_token (hlocal t n k hn (by omega)), List.drop_take, ih (by omega)]

/-- If a cut keeps the token before it, it keeps all tokens before it. -/
theorem lawful (hlocal : split.Local) : split.Lawful where
  toFinds := h
  cut t j := by
    induction t using h.induction generalizing j with
    | nil => rw [List.take_nil, sizes_nil, List.take_nil]
    | token t n ht hn hpos hle ih =>
      cases j with
      | zero => rw [start_zero, List.take_zero, sizes_nil, List.take_zero]
      | succ j =>
        have hcut := take_start_ne_nil ht hn hpos j
        have hfirst := hlocal t n (split.start t (j + 1)) hn
          (by rw [start_of_token hn]; exact Nat.le_add_right _ _)
        rw [sizes_of_token hcut hfirst hpos, sizes_of_token ht hn hpos, List.take_succ_cons,
          List.drop_take, start_of_token hn, Nat.add_sub_cancel_left, ih]

end Finds

/-! ## Cutting a text behind a token -/

namespace Lawful

variable (h : split.Lawful)

include h

theorem count_take (t : Text) (j : Nat) :
    split.count (t.take (split.start t j)) = min j (split.count t) := by
  rw [count, h.cut, List.length_take, ← count]

/-- The first token of a text is the first one of every part that ends with a token. -/
theorem scan_take {t : Text} {n j : Nat} (ht : t ≠ []) (hn : split.scan t true = .token n)
    (hpos : 0 < n) : split.scan (t.take (split.start t (j + 1))) true = .token n := by
  have hcut := take_start_ne_nil ht hn hpos j
  obtain ⟨m, hm, hmpos, -⟩ := h.atEnd _ hcut
  have hsizes := h.cut t (j + 1)
  rw [sizes_of_token hcut hm hmpos, sizes_of_token ht hn hpos, List.take_succ_cons] at hsizes
  rw [hm, (List.cons.inj hsizes).1]

theorem start_take (t : Text) (i j : Nat) :
    split.start (t.take (split.start t j)) i = split.start t (min i j) := by
  induction t using h.toFinds.induction generalizing i j with
  | nil => rw [List.take_nil, h.start_nil, h.start_nil]
  | token t n ht hn hpos hle ih =>
    cases i with
    | zero => rw [start_zero, Nat.zero_min, start_zero]
    | succ i =>
      cases j with
      | zero => rw [Nat.min_zero, start_zero, List.take_zero, h.start_nil]
      | succ j =>
        rw [start_of_token (h.scan_take ht hn hpos), Nat.succ_min_succ, start_of_token hn,
          List.drop_take, start_of_token hn, Nat.add_sub_cancel_left, ih]

end Lawful

/-! ## The tokens that are ready -/

/-- The number of tokens that are found in a text before more of it is asked for. -/
def ready (split : Splitter) : Text → Nat
  | [] => 0
  | b :: rest =>
    match split.scan (b :: rest) false with
    | .token (n + 1) => split.ready (rest.drop n) + 1
    | _ => 0
termination_by t => t.length
decreasing_by exact length_drop_lt_length_cons b rest n

/-- Where the tokens that are ready end. -/
def seam (split : Splitter) (t : Text) : Nat := split.start t (split.ready t)

theorem ready_of_token {t : Text} {n : Nat} (ht : t ≠ []) (hn : split.scan t false = .token n)
    (hpos : 0 < n) : split.ready t = split.ready (t.drop n) + 1 := by
  obtain ⟨b, rest, rfl⟩ := List.exists_cons_of_ne_nil ht
  obtain ⟨m, rfl⟩ := Nat.exists_eq_succ_of_ne_zero (Nat.ne_of_gt hpos)
  rw [ready, hn]
  rfl

theorem ready_of_more {t : Text} (hmore : split.scan t false = .more) : split.ready t = 0 := by
  cases t with
  | nil => rw [ready]
  | cons b rest => rw [ready, hmore]

theorem seam_of_more {t : Text} (hmore : split.scan t false = .more) : split.seam t = 0 := by
  rw [seam, ready_of_more hmore, start_zero]

theorem seam_of_token {t : Text} {n : Nat} (ht : t ≠ []) (hfalse : split.scan t false = .token n)
    (hn : split.scan t true = .token n) (hpos : 0 < n) :
    split.seam t = n + split.seam (t.drop n) := by
  rw [seam, ready_of_token ht hfalse hpos, start_of_token hn, seam]

namespace Finds

variable (h : split.Finds)

include h

/-- More is asked for, or there is a token with a text behind it. -/
theorem ready_induction {motive : Text → Prop}
    (more : ∀ t, split.scan t false = .more → motive t)
    (token : ∀ t n, t ≠ [] → split.scan t false = .token n → split.scan t true = .token n →
      0 < n → n ≤ t.length → motive (t.drop n) → motive t) (t : Text) : motive t := by
  induction t using h.induction with
  | nil => exact more [] (h.empty false)
  | token t n ht hn hpos hle ih =>
    rcases h.beforeEnd t with hmore | hsame
    · exact more t hmore
    · exact token t n ht (hsame.trans hn) hn hpos hle ih

theorem ready_le_count (t : Text) : split.ready t ≤ split.count t := by
  induction t using h.ready_induction with
  | more t hmore =>
    rw [ready_of_more hmore]
    exact Nat.zero_le _
  | token t n ht hfalse hn hpos hle ih =>
    rw [ready_of_token ht hfalse hpos, count, sizes_of_token ht hn hpos, List.length_cons]
    exact Nat.succ_le_succ ih

theorem seam_le_length (t : Text) : split.seam t ≤ t.length := h.start_le_length t _

/-- Behind the tokens that are ready, more is asked for. -/
theorem scan_seam (t : Text) : split.scan (t.drop (split.seam t)) false = .more := by
  induction t using h.ready_induction with
  | more t hmore => rwa [seam_of_more hmore, List.drop_zero]
  | token t n ht hfalse hn hpos hle ih =>
    rwa [seam_of_token ht hfalse hn hpos, ← List.drop_drop]

theorem count_eq_ready_add (t : Text) :
    split.count t = split.ready t + split.count (t.drop (split.seam t)) := by
  have hle := h.ready_le_count t
  rw [seam, h.count_drop]
  omega

end Finds

end ModifierToggle.Splitter

namespace ModifierToggle.Scanner

open Splitter

variable {split : Splitter}

/-! ## Turns -/

theorem countFrom_of_token {s s' : Scanner} (hturn : s.turn split = .token s') (c : Nat) :
    countFrom split c s = countFrom split (c + 1) s' := by
  rw [countFrom]
  split <;> simp_all

theorem countFrom_of_read {s s' : Scanner} (hturn : s.turn split = .read s') (c : Nat) :
    countFrom split c s = countFrom split c s' := by
  rw [countFrom]
  split <;> simp_all

theorem countFrom_of_done {s : Scanner} (hturn : s.turn split = .done) (c : Nat) :
    countFrom split c s = .ok c := by
  rw [countFrom]
  split <;> simp_all

theorem countFrom_of_failed {s : Scanner} {e : ScanError} (hturn : s.turn split = .failed e)
    (c : Nat) : countFrom split c s = .error e := by
  rw [countFrom]
  split <;> simp_all

theorem turn_of_token {s : Scanner} {n : Nat} (hn : split.scan s.held s.atEnd = .token n)
    (hpos : 0 < n) (hle : n ≤ s.held.length) :
    s.turn split = .token { s with start := s.start + n, held := s.held.drop n } := by
  obtain ⟨m, rfl⟩ := Nat.exists_eq_succ_of_ne_zero (Nat.ne_of_gt hpos)
  have hheld : s.held.isEmpty = false := by
    rw [List.isEmpty_eq_false_iff, ← List.length_pos_iff]
    omega
  have hfar : (s.held.drop m).isEmpty = false := by
    rw [List.isEmpty_eq_false_iff, ← List.length_pos_iff, List.length_drop]
    omega
  simp [turn, hheld, hn, hfar]

theorem turn_of_more {s : Scanner} (hend : s.atEnd = false)
    (hmore : split.scan s.held false = .more) : s.turn split = s.readOn := by
  rw [turn, hend]
  split
  · rfl
  · rw [hmore]
    rfl

theorem shift_fields (s : Scanner) :
    s.shift.held = s.held ∧ s.shift.unread = s.unread ∧ s.room ≤ s.shift.room := by
  unfold shift
  split
  · exact ⟨rfl, rfl, Nat.le_add_right _ _⟩
  · exact ⟨rfl, rfl, Nat.le_refl _⟩

theorem readOn_of_room {s : Scanner} (hroom : 0 < s.room) : s.readOn = .read s.shift.fill := by
  have hshift := s.shift_fields.2.2
  rw [readOn, grow?, if_pos (by omega)]

section

variable (h : split.Finds)

include h

/-- Once it is known that the text has ended, all of its tokens are counted. -/
theorem countFrom_of_atEnd {s : Scanner} (hend : s.atEnd = true) (c : Nat) :
    countFrom split c s = .ok (c + split.count s.held) := by
  obtain ⟨start, held, room, unread, atEnd⟩ := s
  obtain rfl : atEnd = true := hend
  induction held using h.induction generalizing start c with
  | nil =>
    rw [countFrom_of_done (by simp [turn, h.empty]), count, sizes_nil]
    rfl
  | token t n ht hn hpos hle ih =>
    rw [countFrom_of_token (turn_of_token hn hpos hle), ih, count, count,
      sizes_of_token ht hn hpos, List.length_cons, Nat.add_assoc, Nat.add_comm 1]

/-- The tokens that are ready are counted before anything is read. -/
theorem countFrom_ready (c start room : Nat) (held unread : Text) :
    countFrom split c ⟨start, held, room, unread, false⟩
      = countFrom split (c + split.ready held)
        ⟨start + split.seam held, held.drop (split.seam held), room, unread, false⟩ := by
  induction held using h.ready_induction generalizing start c with
  | more t hmore => rw [ready_of_more hmore, seam_of_more hmore, List.drop_zero]; rfl
  | token t n ht hfalse hn hpos hle ih =>
    rw [countFrom_of_token (turn_of_token hfalse hpos hle), ih, ready_of_token ht hfalse hpos,
      seam_of_token ht hfalse hn hpos, List.drop_drop, Nat.add_assoc c, Nat.add_comm 1,
      Nat.add_assoc start]

end

/-! ## Fresh scanners -/

/-- The scanner with a buffer of some size that holds as much of a text as fits in there. -/
def fresh (size : Nat) (t : Text) : Scanner :=
  { held := t.take size, room := size - t.length, unread := t.drop size }

/-- A scanner that has read all of a text but does not know it yet counts all of its tokens. -/
theorem countFrom_of_unread (h : split.Finds) {start room : Nat} (held : Text) (hroom : 0 < room)
    (c : Nat) :
    countFrom split c ⟨start, held, room, [], false⟩ = .ok (c + split.count held) := by
  have hmore := h.scan_seam held
  rw [countFrom_ready h, countFrom_of_read ((turn_of_more rfl hmore).trans (readOn_of_room hroom))]
  have hshift := shift_fields
    ⟨start + split.seam held, held.drop (split.seam held), room, [], false⟩
  rw [countFrom_of_atEnd h (by simp [fill, hshift.2.1]), h.count_eq_ready_add held, Nat.add_assoc]
  simp [fill, hshift.1, hshift.2.1]

section

variable (h : split.Finds) {size : Nat} {t : Text}

include h

/-- Text that leaves room in the buffer is counted as a whole. -/
theorem countFrom_fresh_of_lt (hlt : t.length < size) (c : Nat) :
    countFrom split c (fresh size t) = .ok (c + split.count t) := by
  rw [fresh, List.take_of_length_le (Nat.le_of_lt hlt), List.drop_eq_nil_of_le (Nat.le_of_lt hlt)]
  exact countFrom_of_unread h t (by omega) c

/-- A scanner that has made room and reads on is fresh. -/
theorem countFrom_fill {held unread : Text} {room : Nat} (hroom : 0 < room) (c : Nat) :
    countFrom split c (fill ⟨0, held, room, unread, false⟩)
      = countFrom split c (fresh (held.length + room) (held ++ unread)) := by
  by_cases hunread : unread = []
  · -- all has been read, and the scanner finds out now
    subst hunread
    rw [countFrom_of_atEnd h rfl, countFrom_fresh_of_lt h (by simp; omega), List.append_nil]
    rfl
  · congr 1
    rw [fill, if_neg (by simpa using hunread), fresh, List.take_length_add_append,
      List.drop_length_add_append, List.length_append, Nat.add_sub_add_left]

/-- Behind the tokens that are ready in a full buffer, the scanner is fresh again. -/
theorem countFrom_fresh_of_seam (hle : size ≤ t.length) (hpos : 0 < split.seam (t.take size))
    (c : Nat) :
    countFrom split c (fresh size t)
      = countFrom split (c + split.ready (t.take size))
        (fresh size (t.drop (split.seam (t.take size)))) := by
  have hseam := h.seam_le_length (t.take size)
  have hmore := h.scan_seam (t.take size)
  have hroom : size - t.length = 0 := Nat.sub_eq_zero_of_le hle
  rw [fresh, countFrom_ready h, hroom]
  generalize split.seam (t.take size) = k at *
  have hread : readOn ⟨0 + k, (t.take size).drop k, 0, t.drop size, false⟩
      = .read (fill ⟨0, (t.take size).drop k, k, t.drop size, false⟩) := by
    simp [readOn, shift, grow?, hpos]
  rw [countFrom_of_read ((turn_of_more rfl hmore).trans hread), countFrom_fill h hpos,
    ← List.drop_append_of_le_length hseam, List.take_append_drop, List.length_drop,
    Nat.sub_add_cancel hseam, List.length_take, Nat.min_eq_left hle]

/-- If no token is ready in a full buffer, a larger one is taken, up to the limit. -/
theorem countFrom_fresh_of_seam_eq_zero (hle : size ≤ t.length) (hpos : 0 < size)
    (hseam : split.seam (t.take size) = 0) (c : Nat) :
    countFrom split c (fresh size t)
      = if limit ≤ size then .error .tooLong
        else countFrom split c (fresh (min (2 * size) limit) t) := by
  have hmore := h.scan_seam (t.take size)
  rw [hseam, List.drop_zero] at hmore
  have hlength : (t.take size).length = size := List.length_take_of_le hle
  have hroom : size - t.length = 0 := Nat.sub_eq_zero_of_le hle
  have hgrow : (fresh size t).shift.grow?
      = if limit ≤ size then none
        else some ⟨0, t.take size, min (2 * size) limit - size, t.drop size, false⟩ := by
    have hnext : nextSize size = min (2 * size) limit := if_neg (Nat.ne_of_gt hpos)
    simp [shift, grow?, fresh, Scanner.size, hroom, hlength, hnext]
  split
  · next hlimit =>
    rw [if_pos hlimit] at hgrow
    exact countFrom_of_failed ((turn_of_more rfl hmore).trans (by rw [readOn, hgrow])) c
  · next hlimit =>
    rw [if_neg hlimit] at hgrow
    rw [countFrom_of_read ((turn_of_more rfl hmore).trans (by rw [readOn, hgrow])),
      countFrom_fill h (by omega), List.take_append_drop, hlength, Nat.add_sub_cancel' (by omega)]

end

/-- Scanning starts with the first buffer. -/
theorem countScanned_eq (h : split.Finds) (t : Text) :
    split.countScanned t = countFrom split 0 (fresh portion t) := by
  have hread : Scanner.turn split { unread := t } = .read (fill ⟨0, [], portion, t, false⟩) := rfl
  rw [countScanned, countFrom_of_read hread, countFrom_fill h (by decide)]
  simp

end ModifierToggle.Scanner
