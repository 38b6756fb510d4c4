import ModifierToggle.Buffer.Place
import ModifierToggle.Proofs.ClusterCuts
import ModifierToggle.Proofs.LineIndex

set_option autoImplicit false

/-! # Places and offsets

The offset of a place is found on the whole line, and the place of an offset by scanning what stands
before it. A scanner has a bounded part of the line at hand, so that the two agree as long as its
buffers end where clusters end: `Scanner.Seamless` says that they do. Then every place comes back
from its offset; and only then, if a cluster does not depend on what follows it
(`Buffer.places_return`). Fewer bytes than the first buffer has are counted at once.

Nothing of this depends on what a cluster is. That a line in which a buffer ends inside a cluster
does have a place that does not come back is shown with the clusters of `Cluster.splitter`. -/

namespace ModifierToggle.Scanner

open Splitter

variable {split : Splitter} {size : Nat} {t : Text}

/-! ## Counting what is there -/

theorem le_of_countFrom {s : Scanner} {c n : Nat} (hcount : countFrom split c s = .ok n) :
    c ≤ n := by
  fun_induction countFrom split c s with
  | case1 c s s' hturn ih => exact Nat.le_of_succ_le (ih hcount)
  | case2 c s s' hturn ih => exact ih hcount
  | case3 c s hturn => exact Nat.le_of_eq (Except.ok.inj hcount)
  | case4 c s cause hturn => cases hcount

theorem held_ne_nil_of_readOn {s s' : Scanner} (hheld : s.held ≠ []) (hread : s.readOn = .read s') :
    s'.held ≠ [] := by
  unfold readOn at hread
  split at hread
  · cases hread
  · next grown hgrown =>
    obtain rfl := Turn.read.inj hread
    rw [← (grow?_shift_spec hgrown).2.1] at hheld
    unfold fill
    split
    · exact hheld
    · simp [hheld]

theorem readOn_ne_done (s : Scanner) : s.readOn ≠ .done := by
  unfold readOn
  split <;> exact Turn.noConfusion

/-- Where there is text, there is a token. -/
theorem lt_of_countFrom (h : split.Finds) {s : Scanner} {c n : Nat} (hheld : s.held ≠ [])
    (hcount : countFrom split c s = .ok n) : c < n := by
  fun_induction countFrom split c s with
  | case1 c s s' hturn ih => exact le_of_countFrom hcount
  | case2 c s s' hturn ih =>
    exact ih (held_ne_nil_of_readOn hheld (readOn_of_turn_read hturn).2) hcount
  | case3 c s hturn =>
    -- the scanner is not done as long as it holds something
    obtain ⟨m, hm, hpos, hle⟩ := h.atEnd s.held hheld
    cases hend : s.atEnd with
    | true =>
      rw [turn_of_token (hend ▸ hm) hpos hle] at hturn
      cases hturn
    | false =>
      rcases h.beforeEnd s.held with hmore | hsame
      · exact absurd ((turn_of_more hend hmore).symm.trans hturn) s.readOn_ne_done
      · rw [turn_of_token (hend ▸ hsame.trans hm) hpos hle] at hturn
        cases hturn
  | case4 c s cause hturn => cases hcount

/-! ## Buffers and tokens -/

/-- No buffer ends inside a token of a text that is scanned with a buffer of some size, and every
    token fits into one. -/
inductive Seamless (split : Splitter) : (size : Nat) → Text → Prop where
  /-- The text leaves room in the buffer. -/
  | atOnce {size : Nat} {t : Text} (hlt : t.length < size) : Seamless split size t
  /-- No token is ready, and a larger buffer can be taken. -/
  | grow {size : Nat} {t : Text} (hle : size ≤ t.length) (hseam : split.seam (t.take size) = 0)
    (hlimit : size < limit) (hnext : Seamless split (min (2 * size) limit) t) :
    Seamless split size t
  /-- The tokens that are ready are tokens of the text, and so on behind them. -/
  | cut {size : Nat} {t : Text} (j : Nat) (hle : size ≤ t.length)
    (hpos : 0 < split.seam (t.take size)) (hseam : split.seam (t.take size) = split.start t j)
    (hnext : Seamless split size (t.drop (split.seam (t.take size)))) : Seamless split size t

/-- A buffer's worth of a text that is cut behind it. -/
theorem take_take_size {k : Nat} (hk : size ≤ k) : (t.take k).take size = t.take size := by
  rw [List.take_take, Nat.min_eq_left hk]

section

variable (h : split.Lawful)

include h

theorem seam_take_le (size : Nat) (t : Text) : split.seam (t.take size) ≤ size :=
  Nat.le_trans (h.seam_le_length _) (List.length_take_le _ _)

/-- The tokens that are ready are as many as the text has up to where they end. -/
theorem ready_take {j : Nat} (hseam : split.seam (t.take size) = split.start t j) :
    split.ready (t.take size) = min j (split.count t) := by
  have hready := h.count_take (t.take size) (split.ready (t.take size))
  rw [← seam, List.take_take, Nat.min_eq_left (seam_take_le h size t), hseam, h.count_take,
    Nat.min_eq_left (h.ready_le_count _)] at hready
  exact hready.symm

/-- A text without seams inside its tokens is counted as it is. -/
theorem Seamless.countFrom_eq (hs : Seamless split size t) (hsize : 0 < size) (c : Nat) :
    countFrom split c (fresh size t) = .ok (c + split.count t) := by
  induction hs generalizing c with
  | atOnce hlt => exact countFrom_fresh_of_lt h.toFinds hlt c
  | grow hle hseam hlimit hnext ih =>
    rw [countFrom_fresh_of_seam_eq_zero h.toFinds hle hsize hseam, if_neg (Nat.not_le.2 hlimit)]
    exact ih (by omega) c
  | cut j hle hpos hseam hnext ih =>
    rw [countFrom_fresh_of_seam h.toFinds hle hpos, ih hsize, ready_take h hseam, hseam,
      h.count_drop]
    congr 1
    omega

/-- Cutting behind a token keeps what is scanned before the cut. -/
theorem Seamless.take (hs : Seamless split size t) (j : Nat) :
    Seamless split size (t.take (split.start t j)) := by
  induction hs generalizing j with
  | @atOnce size t hlt =>
    exact .atOnce (Nat.lt_of_le_of_lt (List.length_take_le' _ _) hlt)
  | @grow size t hle hseam hlimit hnext ih =>
    rcases Nat.lt_or_ge (split.start t j) size with hcut | hcut
    · exact .atOnce (Nat.lt_of_le_of_lt (List.length_take_le _ _) hcut)
    · refine .grow ?_ ?_ hlimit (ih j)
      · rw [List.length_take]
        omega
      · rwa [take_take_size hcut]
  | @cut size t i hle hpos hseam hnext ih =>
    have hlength := h.start_le_length t j
    rcases Nat.lt_or_ge (split.start t j) size with hcut | hcut
    · exact .atOnce (Nat.lt_of_le_of_lt (List.length_take_le _ _) hcut)
    · have hbound := seam_take_le h size t
      -- the seam is before the cut, so that the buffer is the same
      have hij : split.seam (t.take size) = split.start t (min i j) := by
        rcases Nat.le_total i j with hij | hij
        · rw [Nat.min_eq_left hij, hseam]
        · have hmono := h.start_le_of_le t hij
          rw [Nat.min_eq_right hij]
          omega
      refine .cut (min i j) ?_ ?_ ?_ ?_
      · rw [List.length_take]
        omega
      · rwa [take_take_size hcut]
      · rw [take_take_size hcut, h.start_take, hij, Nat.min_assoc, Nat.min_self]
      · have hrest := h.start_add t (min i j) (j - min i j)
        rw [Nat.add_sub_cancel' (Nat.min_le_right i j), ← hij] at hrest
        rw [take_take_size hcut, List.drop_take, hrest, Nat.add_sub_cancel_left]
        exact ih _

end

/-! ## Every column -/

/-- Every part of a text that ends with a token is counted right, behind `c` other tokens. -/
def Exact (split : Splitter) (c size : Nat) (t : Text) : Prop :=
  ∀ j ≤ split.count t, countFrom split c (fresh size (t.take (split.start t j))) = .ok (c + j)

theorem Seamless.exact (h : split.Lawful) (hs : Seamless split size t) (hsize : 0 < size)
    (c : Nat) : Exact split c size t := by
  intro j hj
  rw [(hs.take h j).countFrom_eq h hsize, h.count_take, Nat.min_eq_left hj]

section

variable (h : split.Lawful) {c : Nat} (hexact : Exact split c size t)

include h hexact

/-- Where all columns are right, a larger buffer can be taken if no token is ready. -/
theorem Exact.grow (hle : size ≤ t.length) (hsize : 0 < size)
    (hseam : split.seam (t.take size) = 0) :
    size < limit ∧ Exact split c (min (2 * size) limit) t := by
  have hlimit : size < limit := by
    by_contra hlimit
    have hwhole := hexact (split.count t) (Nat.le_refl _)
    rw [h.start_of_count_le (Nat.le_refl _), List.take_length,
      countFrom_fresh_of_seam_eq_zero h.toFinds hle hsize hseam, if_pos (Nat.not_lt.1 hlimit)]
      at hwhole
    cases hwhole
  refine ⟨hlimit, fun j hj => ?_⟩
  have hlength := h.start_le_length t j
  rcases Nat.lt_or_ge (split.start t j) size with hcut | hcut
  · rw [countFrom_fresh_of_lt h.toFinds (by rw [List.length_take]; omega), h.count_take,
      Nat.min_eq_left hj]
  · have hcolumn := hexact j hj
    rwa [countFrom_fresh_of_seam_eq_zero h.toFinds (by rw [List.length_take]; omega) hsize
      (by rwa [take_take_size hcut]), if_neg (Nat.not_le.2 hlimit)] at hcolumn

theorem Exact.drop {j : Nat} (hpos : 0 < split.seam (t.take size)) (hj : j ≤ split.count t)
    (hseam : split.seam (t.take size) = split.start t j) :
    Exact split (c + j) size (t.drop (split.seam (t.take size))) := by
  intro i hi
  rw [hseam, h.count_drop] at hi
  have hstart := h.start_add t j i
  rw [← hseam] at hstart
  have hcut : (t.drop (split.seam (t.take size))).take
        (split.start (t.drop (split.seam (t.take size))) i)
      = (t.take (split.start t (j + i))).drop (split.seam (t.take size)) := by
    rw [List.drop_take, hstart, Nat.add_sub_cancel_left]
  have hlength := h.start_le_length t (j + i)
  rcases Nat.lt_or_ge (split.start t (j + i)) size with hshort | hge
  · rw [countFrom_fresh_of_lt h.toFinds (by rw [hcut, List.length_drop, List.length_take]; omega),
      h.count_take, hseam, h.count_drop, Nat.min_eq_left hi]
  · have hcolumn := hexact (j + i) (by omega)
    rwa [countFrom_fresh_of_seam h.toFinds (by rw [List.length_take]; omega)
      (by rwa [take_take_size hge]), take_take_size hge, ready_take h hseam, Nat.min_eq_left hj,
      ← hcut, ← Nat.add_assoc] at hcolumn

/-- Where all columns are right, the seam is between tokens. -/
theorem Exact.seam_eq (hlocal : split.Local) (hle : size ≤ t.length)
    (hpos : 0 < split.seam (t.take size)) :
    ∃ j ≤ split.count t, split.seam (t.take size) = split.start t j := by
  by_contra hnone
  have hbound := seam_take_le h size t
  have hend := h.start_of_count_le (Nat.le_refl (split.count t))
  have hinside : ∀ j, split.seam (t.take size) ≠ split.start t j := by
    intro j hj
    rcases Nat.le_total j (split.count t) with hcount | hcount
    · exact hnone ⟨j, hcount, hj⟩
    · rw [h.start_of_count_le hcount] at hj
      exact hnone ⟨_, Nat.le_refl _, hj.trans hend.symm⟩
  obtain ⟨i, hi, hstart, hbehind⟩ :=
    exists_token_around (m := split.count t) (by omega) hinside
  -- tokens that the buffer has as a whole are its own tokens
  have hkept := h.start_take_of_le hlocal (Nat.le_trans (Nat.le_of_lt hstart) hbound)
  have hready : i < split.ready (t.take size) := by
    by_contra hge
    have hmono := h.start_le_of_le (t.take size) (Nat.le_of_not_lt hge)
    rw [← seam] at hmono
    omega
  rcases Nat.le_total (split.start t (i + 1)) size with hin | hout
  · have hmono := h.start_le_of_le (t.take size) hready
    rw [← seam, h.start_take_of_le hlocal hin] at hmono
    omega
  · -- the token goes on behind the buffer, and its two parts are a column each
    have hcolumn := hexact (i + 1) hi
    have hlength := h.start_le_length t (i + 1)
    rw [countFrom_fresh_of_seam h.toFinds (by rw [List.length_take]; omega)
      (by rwa [take_take_size hout]), take_take_size hout] at hcolumn
    have hheld : (fresh size ((t.take (split.start t (i + 1))).drop
        (split.seam (t.take size)))).held ≠ [] := by
      rw [← List.length_pos_iff]
      simp only [fresh, List.length_take, List.length_drop]
      omega
    have hlt := lt_of_countFrom h.toFinds hheld hcolumn
    omega

end

/-- **Columns are right exactly where no buffer ends inside a token,** if a token does not depend on
    what follows it. -/
theorem Exact.seamless (h : split.Lawful) (hlocal : split.Local) (hsize : 0 < size) {c : Nat}
    (hexact : Exact split c size t) : Seamless split size t := by
  induction hn : t.length + (limit - size) using Nat.strongRecOn generalizing t size c with
  | _ n ih =>
    rcases Nat.lt_or_ge t.length size with hlt | hle
    · exact .atOnce hlt
    · rcases Nat.eq_zero_or_pos (split.seam (t.take size)) with hseam | hpos
      · obtain ⟨hlimit, hnext⟩ := hexact.grow h hle hsize hseam
        exact .grow hle hseam hlimit (ih _ (by omega) (by omega) hnext rfl)
      · obtain ⟨j, hj, hseam⟩ := hexact.seam_eq h hlocal hle hpos
        refine .cut j hle hpos hseam (ih _ ?_ hsize (hexact.drop h hpos hj hseam) rfl)
        rw [List.length_drop]
        omega

/-- A text that is cut behind a token is exact if the columns before the cut are right. -/
theorem exact_take_iff (h : split.Lawful) {m : Nat} :
    Exact split 0 portion (t.take (split.start t m)) ↔
      ∀ k ≤ m, split.countScanned (t.take (split.start t k)) = .ok (min k (split.count t)) := by
  have hcut : ∀ {k}, k ≤ m →
      (t.take (split.start t m)).take (split.start (t.take (split.start t m)) k)
        = t.take (split.start t k) := by
    intro k hk
    rw [h.start_take, Nat.min_eq_left hk, List.take_take,
      Nat.min_eq_left (h.start_le_of_le t hk)]
  simp only [Exact, h.count_take, countScanned_eq h.toFinds, Nat.zero_add]
  constructor
  · intro hexact k hk
    rcases Nat.le_total k (split.count t) with hle | hge
    · rw [← hcut hk, hexact k (by omega), Nat.min_eq_left hle]
    · -- behind the last token, the columns are those of the last token
      have hlast := hexact (split.count t) (by omega)
      rw [hcut (by omega), h.start_of_count_le (Nat.le_refl _)] at hlast
      rw [h.start_of_count_le hge, hlast, Nat.min_eq_right hge]
  · intro hcolumns k hk
    rw [hcut (by omega), hcolumns k (by omega), Nat.min_eq_left (by omega)]

end ModifierToggle.Scanner

namespace ModifierToggle.Cluster

open Splitter

/-! ## A mark behind a buffer -/

/-- Letters, and an accent on the last one. -/
def markBehind (n : Nat) : Text := List.replicate n 0x61 ++ [0xCC, 0x81]

/-- A letter before another letter is a cluster by itself. -/
theorem firstSize_letter (t : Text) : firstSize (0x61 :: 0x61 :: t) = 1 := by
  have hunit : ∀ rest, unitAt 0x61 rest = ⟨.other, 1⟩ := fun _ => rfl
  rw [firstSize_eq, units_cons, hunit, Nat.sub_self, List.drop_zero, units_cons, hunit]
  rfl

theorem sizes_letters (n : Nat) (t : Text) :
    splitter.sizes (List.replicate (n + 1) 0x61 ++ t)
      = List.replicate n 1 ++ splitter.sizes (0x61 :: t) := by
  induction n with
  | zero => rfl
  | succ n ih =>
    have hscan : splitter.scan (List.replicate (n + 2) 0x61 ++ t) true = .token 1 :=
      congrArg Scan.token (firstSize_letter _)
    have hne : List.replicate (n + 2) 0x61 ++ t ≠ [] := List.cons_ne_nil _ _
    rw [sizes_of_token hne hscan Nat.one_pos, List.replicate_succ, List.cons_append,
      List.drop_succ_cons, List.drop_zero, ih, List.replicate_succ, List.cons_append]

theorem count_letters {n : Nat} (h : 0 < n) {t : Text} (ht : splitter.count (0x61 :: t) = 1) :
    splitter.count (List.replicate n 0x61 ++ t) = n := by
  obtain ⟨m, rfl⟩ := Nat.exists_eq_succ_of_ne_zero (Nat.ne_of_gt h)
  rw [count] at ht
  rw [count, sizes_letters, List.length_append, List.length_replicate, ht]

/-- A text whose first cluster is all of it has one cluster. -/
theorem count_eq_one {t : Text} (ht : t ≠ []) (h : splitter.scan t true = .token t.length) :
    splitter.count t = 1 := by
  rw [count, sizes_of_token ht h (List.length_pos_iff.2 ht), List.drop_length, sizes_nil]
  rfl

theorem count_markBehind {n : Nat} (h : 0 < n) : splitter.count (markBehind n) = n :=
  count_letters h (count_eq_one (by decide) (by decide))

theorem length_markBehind (n : Nat) : (markBehind n).length = n + 2 := by
  simp [markBehind]

/-- Letters are ready as they come. -/
theorem ready_letters (n : Nat) : splitter.ready (List.replicate n 0x61) = n := by
  induction n with
  | zero => rw [List.replicate_zero, ready]
  | succ n ih =>
    have hsize : firstSize (List.replicate (n + 1) 0x61) = 1 := by
      cases n with
      | zero => decide
      | succ n => exact firstSize_letter _
    have hscan : splitter.scan (List.replicate (n + 1) 0x61) false = .token 1 :=
      congrArg Scan.token hsize
    have hne : List.replicate (n + 1) (0x61 : UInt8) ≠ [] := List.cons_ne_nil _ _
    rw [ready_of_token hne hscan Nat.one_pos, List.replicate_succ, List.drop_succ_cons,
      List.drop_zero, ih]

theorem seam_letters {n : Nat} (h : 0 < n) : splitter.seam (List.replicate n 0x61) = n := by
  have hcount : splitter.count (List.replicate n 0x61 ++ []) = n :=
    count_letters h (count_eq_one (by decide) (by decide))
  rw [List.append_nil] at hcount
  rw [seam, ready_letters, finds_splitter.start_of_count_le (Nat.le_of_eq hcount),
    List.length_replicate]

/-- The mark is counted by itself if the buffer ends before it. -/
theorem countScanned_markBehind :
    splitter.countScanned (markBehind Scanner.portion) = .ok (Scanner.portion + 1) := by
  have hpos : 0 < Scanner.portion := by decide
  have htake : (markBehind Scanner.portion).take Scanner.portion
      = List.replicate Scanner.portion 0x61 := by
    rw [markBehind, List.take_left' (List.length_replicate ..)]
  have hdrop : (markBehind Scanner.portion).drop Scanner.portion = [0xCC, 0x81] := by
    rw [markBehind, List.drop_left' (List.length_replicate ..)]
  have hmark : splitter.count [0xCC, 0x81] = 1 := count_eq_one (by decide) (by decide)
  rw [Scanner.countScanned_eq finds_splitter,
    Scanner.countFrom_fresh_of_seam finds_splitter (by rw [length_markBehind]; omega)
      (by rw [htake, seam_letters hpos]; exact hpos),
    htake, seam_letters hpos, ready_letters, hdrop,
    Scanner.countFrom_fresh_of_lt finds_splitter (by decide), hmark, Nat.zero_add]

end ModifierToggle.Cluster

namespace ModifierToggle.Buffer

open Scanner

variable (b : Buffer)

/-! ## Places -/

theorem lineEnd_lt_lineStart_succ {n : Nat} (h : n + 1 < b.lineCount) :
    b.lineEnd n < b.lineStart (n + 1 : Nat) := by
  by_contra hge
  have hnil : b.lineBreak n = [] := by
    rw [lineBreak, Text.slice, List.drop_eq_nil_iff, List.length_take]
    omega
  rcases b.lineBreak_cases h with hbreak | ⟨hbreak, -⟩ <;> rw [hnil] at hbreak <;> cases hbreak

/-- An offset from the start of a line to its end is on that line. -/
theorem lineAt_of_le {n o : Nat} (hn : n < b.lineCount) (hstart : b.lineStart n ≤ o)
    (hend : o ≤ b.lineEnd n) : b.lineAt o = n := by
  have hcount := b.lineCount_eq_count
  have hbefore := (b.lineStart_le_iff hn o).1 hstart
  rw [lineAt_eq]
  refine Nat.le_antisymm ?_ hbefore
  by_cases hlast : n + 1 < b.lineCount
  · have hnext := b.lineEnd_lt_lineStart_succ hlast
    have hafter := mt (b.lineStart_le_iff hlast o).2 (by omega)
    omega
  · have hall := (List.take_sublist o b.text).count_le Byte.newline
    omega

/-- A text without newlines is one line. -/
theorem line_zero_of_notMem (h : Byte.newline ∉ b.text) :
    b.lineCount = 1 ∧ b.line (0 : Nat) = b.text := by
  have hcount : b.lineCount = 1 := by
    rw [lineCount_eq_count, List.count_eq_zero_of_not_mem h]
  have hall := b.textAbove_lineCount
  rw [hcount] at hall
  have hbreak : b.lineBreak 0 = [] := b.lineBreak_last hcount.symm
  refine ⟨hcount, Eq.trans ?_ hall⟩
  simp [textAbove, hbreak]

/-- A place comes back from its offset, as the end of the line if there is no such column. -/
def Returns (split : Splitter) (b : Buffer) (p : Place) : Prop :=
  ∃ o : Nat, b.offsetOf split p = .ok o ∧
    b.placeOf split o = .ok ⟨p.line, min p.column (split.count (b.line p.line))⟩

section

variable {split : Splitter} (h : split.Finds) {n : Nat} (hn : n < b.lineCount)

include h

theorem offsetFrom_eq (o c : Nat) (t : Text) :
    split.offsetFrom o c t = .ok (o + split.start t c) := by
  induction c generalizing o t with
  | zero => rw [Splitter.offsetFrom, Splitter.start_zero, Nat.add_zero]
  | succ c ih =>
    rw [Splitter.offsetFrom]
    by_cases ht : t = []
    · rw [if_pos (List.isEmpty_iff.2 ht), ht, h.start_nil, Nat.add_zero]
    · obtain ⟨k, hk, hpos, -⟩ := h.atEnd t ht
      rw [if_neg (mt List.isEmpty_iff.1 ht), Splitter.start_of_token hk, hk]
      simp only [if_neg (Nat.ne_of_gt hpos), ih, Nat.add_assoc]

include hn

theorem offsetOf_eq (c : Nat) :
    b.offsetOf split ⟨n, c⟩ = .ok (b.lineStart n + split.start (b.line n) c) := by
  rw [offsetOf, if_neg (by simp; omega), offsetFrom_eq h]
  rfl

theorem offset_le_lineEnd (c : Nat) :
    b.lineStart n + split.start (b.line n) c ≤ b.lineEnd n := by
  have hle := h.start_le_length (b.line n) c
  have hlength := b.length_line hn
  omega

theorem placeOf_offset (c k : Nat) :
    b.placeOf split (b.lineStart n + split.start (b.line n) c : Nat) = .ok ⟨n, k⟩ ↔
      split.countScanned ((b.line n).take (split.start (b.line n) c)) = .ok k := by
  have hline := b.lineAt_of_le hn (Nat.le_add_right _ _) (offset_le_lineEnd b h hn c)
  have hwithin : (((b.lineStart n + split.start (b.line n) c : Nat) : Int) - b.lineStart n).toNat
      = split.start (b.line n) c := by omega
  simp only [placeOf, hline, hwithin]
  cases split.countScanned ((b.line n).take (split.start (b.line n) c)) with
  | error cause => simp
  | ok column => simp only [Except.ok.injEq, Place.mk.injEq, Int.natCast_inj, true_and]

theorem returns_iff (c : Nat) :
    b.Returns split ⟨n, c⟩ ↔
      split.countScanned ((b.line n).take (split.start (b.line n) c))
        = .ok (min c (split.count (b.line n))) := by
  have hcolumn : min (c : Int) (split.count (b.line n))
      = (min c (split.count (b.line n)) : Nat) := by
    omega
  rw [← placeOf_offset b h hn, Returns, offsetOf_eq b h hn, ← hcolumn]
  constructor
  · rintro ⟨o, hoffset, hplace⟩
    obtain rfl := Except.ok.inj hoffset
    exact hplace
  · intro hplace
    exact ⟨_, rfl, hplace⟩

end

/-- The columns up to one come back exactly if they are counted right. -/
theorem forall_returns_iff {split : Splitter} (h : split.Lawful) {n : Nat} (hn : n < b.lineCount)
    (c : Nat) :
    (∀ k, 0 ≤ k → k ≤ (c : Int) → b.Returns split ⟨n, k⟩) ↔
      Scanner.Exact split 0 portion ((b.line n).take (split.start (b.line n) c)) := by
  rw [exact_take_iff h]
  constructor
  · intro hreturns k hk
    exact (returns_iff b h.toFinds hn k).1
      (hreturns k (Int.natCast_nonneg k) (Int.ofNat_le.2 hk))
  · intro hcolumns k hk hkc
    obtain ⟨k, rfl⟩ := Int.eq_ofNat_of_zero_le hk
    exact (returns_iff b h.toFinds hn k).2 (hcolumns k (Int.ofNat_le.1 hkc))

/-- **Places and offsets.** Whatever is a cluster, if clusters are found in every line and a cut
    behind one keeps those before it: on every line, every column has an offset between the start of
    the line and its end, and a later column has no earlier offset. The columns up to one come back
    from their offsets, and a column behind the end as the end, if no buffer ends inside a cluster
    when the line is scanned up to there, and none is too small for a cluster. If a cluster does not
    depend on what follows it, they come back only then. So they do if fewer bytes than the first
    buffer has stand there. -/
theorem places_return {split : Splitter} (h : split.Lawful) {n c : Int} (hn : 0 ≤ n)
    (hcount : n < b.lineCount) (hc : 0 ≤ c) :
    ∃ o : Nat, b.offsetOf split ⟨n, c⟩ = .ok o ∧ b.lineStart n ≤ o ∧ o ≤ b.lineEnd n ∧
      (∀ k, c ≤ k → ∃ o', b.offsetOf split ⟨n, k⟩ = .ok o' ∧ o ≤ o') ∧
      (Seamless split portion ((b.line n).take (o - b.lineStart n)) →
        ∀ k, 0 ≤ k → k ≤ c → b.Returns split ⟨n, k⟩) ∧
      (split.Local → (∀ k, 0 ≤ k → k ≤ c → b.Returns split ⟨n, k⟩) →
        Seamless split portion ((b.line n).take (o - b.lineStart n))) ∧
      (o - b.lineStart n < portion → b.Returns split ⟨n, c⟩) := by
  obtain ⟨n, rfl⟩ := Int.eq_ofNat_of_zero_le hn
  obtain ⟨c, rfl⟩ := Int.eq_ofNat_of_zero_le hc
  have hn : n < b.lineCount := Int.ofNat_lt.1 hcount
  have hportion : 0 < portion := by decide
  have hreturns : Seamless split portion ((b.line n).take (split.start (b.line n) c)) →
      ∀ k, 0 ≤ k → k ≤ (c : Int) → b.Returns split ⟨n, k⟩ :=
    fun hseamless => (forall_returns_iff b h hn c).2 (hseamless.exact h hportion 0)
  refine ⟨_, offsetOf_eq b h.toFinds hn c, Nat.le_add_right _ _,
    offset_le_lineEnd b h.toFinds hn c, fun k hk => ?_, ?_, fun hlocal hall => ?_, ?_⟩
  · obtain ⟨k, rfl⟩ := Int.eq_ofNat_of_zero_le (Int.le_trans hc hk)
    exact ⟨_, offsetOf_eq b h.toFinds hn k,
      Nat.add_le_add_left (h.start_le_of_le (b.line n) (Int.ofNat_le.1 hk)) _⟩
  · rwa [Nat.add_sub_cancel_left]
  · rw [Nat.add_sub_cancel_left]
    exact ((forall_returns_iff b h hn c).1 hall).seamless h hlocal hportion
  · rw [Nat.add_sub_cancel_left]
    intro hshort
    exact hreturns (.atOnce (Nat.lt_of_le_of_lt (List.length_take_le _ _) hshort)) c hc
      (Int.le_refl _)

/-- A letter with an accent is one column, and a column behind the end is the end. -/
theorem places_return_accent :
    let b := ofText (utf8 "a\r\ne\u0301x")
    Cluster.splitter.Lawful ∧ b.lineCount = 2 ∧ b.offsetOf Cluster.splitter ⟨1, 9⟩ = .ok 7 ∧
    b.Returns Cluster.splitter ⟨1, 9⟩ := by
  intro b
  have hoffset : b.offsetOf Cluster.splitter ⟨1, 9⟩ = .ok 7 := by decide
  obtain ⟨o, ho, -, -, -, -, -, hreturns⟩ :=
    places_return b Cluster.lawful_splitter (n := 1) (c := 9) (by decide) (by decide) (by decide)
  obtain rfl := Except.ok.inj (ho.symm.trans hoffset)
  exact ⟨Cluster.lawful_splitter, by decide, hoffset, hreturns (by decide)⟩

/-- A mark right behind the first buffer is a column of its own when columns are counted, but not
    when the line is cut into clusters. -/
theorem places_return_fails_behind_portion :
    let b := ofText (Cluster.markBehind portion)
    Cluster.splitter.Lawful ∧ b.lineCount = 1 ∧ Cluster.splitter.count (b.line 0) = portion ∧
    b.offsetOf Cluster.splitter ⟨0, portion⟩ = .ok (portion + 2) ∧
    b.placeOf Cluster.splitter (portion + 2 : Nat) = .ok ⟨0, (portion + 1 : Nat)⟩ := by
  intro b
  have htext : b.text = Cluster.markBehind portion := rfl
  have hletters : Byte.newline ∉ b.text := by
    simp [htext, Cluster.markBehind, Byte.newline]
  obtain ⟨hcount, hline⟩ := b.line_zero_of_notMem hletters
  have hfirst : 0 < b.lineCount := hcount ▸ Nat.one_pos
  have hclusters : Cluster.splitter.count (Cluster.markBehind portion) = portion :=
    Cluster.count_markBehind (by decide)
  have hstart : Cluster.splitter.start (Cluster.markBehind portion) portion = portion + 2 := by
    rw [Cluster.finds_splitter.start_of_count_le (Nat.le_of_eq hclusters),
      Cluster.length_markBehind]
  have hoffset := offsetOf_eq b Cluster.finds_splitter hfirst portion
  have hplace := placeOf_offset b Cluster.finds_splitter hfirst portion (portion + 1)
  rw [htext] at hline
  rw [hline, b.lineStart_zero, Nat.zero_add, hstart] at hoffset hplace
  refine ⟨Cluster.lawful_splitter, hcount, (congrArg Cluster.splitter.count hline).trans hclusters,
    hoffset, hplace.2 ?_⟩
  rw [← Cluster.length_markBehind, List.take_length, Cluster.countScanned_markBehind]

end ModifierToggle.Buffer
