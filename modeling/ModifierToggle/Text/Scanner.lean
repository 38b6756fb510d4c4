import ModifierToggle.Text.Basic

set_option autoImplicit false

/-! # Splitting a text into tokens

What a token is, is left to a `Splitter`: it looks at the front of a text and finds a token there,
or asks for more of the text, or fails. It is told whether the text ends where it does.

A text that is at hand as a whole is split from the left (`Splitter.sizes`). A `Scanner` has a
bounded buffer at hand instead, into which the text is read bit by bit. It takes tokens from the
buffer as long as the splitter finds any, and reads on when the splitter asks for more. Room is made
by moving what is held to the start of the buffer, and when that gives none by a larger buffer, up
to a limit. That the text has ended shows only when nothing more can be read. -/

namespace ModifierToggle

/-- What is found at the front of a text. -/
inductive Scan where
  /-- A token of so many bytes. -/
  | token (size : Nat)
  /-- Nothing, unless there is more of the text. -/
  | more
  | failed (reason : Text)
  deriving Repr, DecidableEq

/-- A way to find the token at the front of a text. -/
structure Splitter where
  /-- What is found, where `atEnd` tells that the text ends here and does not go on. -/
  scan : (t : Text) → (atEnd : Bool) → Scan

namespace Splitter

theorem length_drop_lt_length_cons (b : UInt8) (rest : Text) (n : Nat) :
    (rest.drop n).length < (b :: rest).length := by
  rw [List.length_drop, List.length_cons]
  exact Nat.lt_succ_of_le (Nat.sub_le _ _)

/-- The sizes of the tokens of a text, in order. -/
def sizes (split : Splitter) : Text → List Nat
  | [] => []
  | b :: rest =>
    match split.scan (b :: rest) true with
    | .token (n + 1) => (n + 1) :: split.sizes (rest.drop n)
    | _ => []
termination_by t => t.length
decreasing_by exact length_drop_lt_length_cons b rest n

/-- The number of tokens of a text. -/
def count (split : Splitter) (t : Text) : Nat := (split.sizes t).length

/-- The offset behind the first `tokens` tokens of a text that starts at `offset`; its end when
    there are not as many, and the reason when the splitter fails. -/
def offsetFrom (split : Splitter) (offset : Nat) : (tokens : Nat) → Text → Except Text Nat
  | 0, _ => .ok offset
  | tokens + 1, rest =>
    if rest.isEmpty then .ok offset
    else match split.scan rest true with
      | .failed reason => .error reason
      | .more => .ok offset
      | .token size =>
        if size = 0 then .ok offset
        else split.offsetFrom (offset + size) tokens (rest.drop size)

end Splitter

/-! ## Scanners -/

/-- Why a text cannot be scanned. -/
inductive ScanError where
  /-- No token is found in the largest buffer. -/
  | tooLong
  /-- A token has more bytes than there are. -/
  | tooFar
  /-- A token has no bytes, so that it would be found again and again. -/
  | noProgress
  | split (reason : Text)
  deriving Repr, DecidableEq

/-- The wording of the error. -/
def ScanError.message : ScanError → Text
  | .tooLong => utf8 "bufio.Scanner: token too long"
  | .tooFar => utf8 "bufio.Scanner: SplitFunc returns advance count beyond input"
  | .noProgress => utf8 "bufio.Scan: too many empty tokens without progressing"
  | .split reason => reason

/-- A text that is being scanned. The buffer has the bytes `held`, with `start` free bytes before
    them and `room` free bytes behind them. -/
structure Scanner where
  start : Nat := 0
  held : Text := []
  room : Nat := 0
  /-- What has not been read yet. -/
  unread : Text
  /-- Whether it is known that there is nothing to read any more. -/
  atEnd : Bool := false
  deriving Repr, DecidableEq

/-- What comes of one turn of a scanner. -/
inductive Scanner.Turn where
  /-- A token is found, and the scanner stands behind it. -/
  | token (s : Scanner)
  | read (s : Scanner)
  | done
  | failed (cause : ScanError)
  deriving Repr, DecidableEq

namespace Scanner

/-- The size of the first buffer. -/
def portion : Nat := 4096

/-- The size that no buffer exceeds. -/
def limit : Nat := 65536

/-- The size of the buffer. -/
def size (s : Scanner) : Nat := s.start + s.held.length + s.room

/-- Move what is held to the start of the buffer, if there is no room behind it or much before
    it. -/
def shift (s : Scanner) : Scanner :=
  if 0 < s.start && (s.room == 0 || s.size / 2 < s.start) then
    { s with start := 0, room := s.room + s.start }
  else s

/-- The size of the buffer that takes the place of a full one. -/
def nextSize (size : Nat) : Nat := if size = 0 then portion else min (2 * size) limit

/-- Take a larger buffer, if there is no room in this one; `none` when it is as large as it may
    be. -/
def grow? (s : Scanner) : Option Scanner :=
  if 0 < s.room then some s
  else if limit ≤ s.size then none
  else some { s with start := 0, room := nextSize s.size - s.held.length }

/-- Read as much as there is room for. Only a scanner that finds nothing to read knows that the text
    has ended. -/
def fill (s : Scanner) : Scanner :=
  if s.unread.isEmpty then { s with atEnd := true }
  else
    { s with
      held := s.held ++ s.unread.take s.room
      room := s.room - s.unread.length
      unread := s.unread.drop s.room }

/-- Make room and read on. -/
def readOn (s : Scanner) : Turn :=
  match s.shift.grow? with
  | none => .failed .tooLong
  | some s => .read s.fill

/-- Take a token, or read on if none is found. -/
def turn (split : Splitter) (s : Scanner) : Turn :=
  if s.held.isEmpty && !s.atEnd then s.readOn
  else match split.scan s.held s.atEnd with
    | .failed reason => .failed (.split reason)
    | .token 0 => .failed .noProgress
    | .token (n + 1) =>
      if (s.held.drop n).isEmpty then .failed .tooFar
      else .token { s with start := s.start + (n + 1), held := s.held.drop (n + 1) }
    | .more => if s.atEnd then .done else s.readOn

/-! ## Counting -/

/-- What there is left to do: bytes to read and to take, and the end to find. -/
def todo (s : Scanner) : Nat :=
  2 * s.unread.length + s.held.length + if s.atEnd then 0 else 1

theorem lt_nextSize {size : Nat} (h : size < limit) : size < nextSize size := by
  unfold nextSize limit at *
  split
  · next hzero => simp [hzero, portion]
  · omega

/-- Room is made before more is read, and nothing else is changed. -/
theorem grow?_shift_spec {s s' : Scanner} (h : s.shift.grow? = some s') :
    0 < s'.room ∧ s'.held = s.held ∧ s'.unread = s.unread ∧ s'.atEnd = s.atEnd := by
  have hshift : s.shift.held = s.held ∧ s.shift.unread = s.unread ∧ s.shift.atEnd = s.atEnd := by
    unfold shift
    split <;> exact ⟨rfl, rfl, rfl⟩
  rw [← hshift.1, ← hshift.2.1, ← hshift.2.2]
  unfold grow? at h
  split at h
  · next hroom =>
    obtain rfl := Option.some.inj h
    exact ⟨hroom, rfl, rfl, rfl⟩
  · split at h
    · cases h
    · next hlimit =>
      obtain rfl := Option.some.inj h
      have hlt := lt_nextSize (Nat.lt_of_not_le hlimit)
      refine ⟨?_, rfl, rfl, rfl⟩
      unfold size at hlt
      show 0 < nextSize s.shift.size - s.shift.held.length
      unfold size
      omega

theorem todo_fill_lt {s : Scanner} (hroom : 0 < s.room) (hend : s.atEnd = false) :
    s.fill.todo < s.todo := by
  unfold fill
  split
  · simp [todo, hend]
  · next hunread =>
    have hpos : 0 < s.unread.length := by
      rw [List.length_pos_iff]
      simpa using hunread
    simp only [todo, List.length_append, List.length_take, List.length_drop]
    omega

theorem todo_lt_of_readOn {s s' : Scanner} (hend : s.atEnd = false) (h : s.readOn = .read s') :
    s'.todo < s.todo := by
  unfold readOn at h
  split at h
  · cases h
  · next grown hgrown =>
    obtain rfl := Turn.read.inj h
    obtain ⟨hroom, hheld, hunread, hatEnd⟩ := grow?_shift_spec hgrown
    have htodo : grown.todo = s.todo := by rw [todo, todo, hheld, hunread, hatEnd]
    exact htodo ▸ todo_fill_lt hroom (hatEnd.trans hend)

theorem readOn_ne_token (s s' : Scanner) : s.readOn ≠ .token s' := by
  unfold readOn
  split <;> exact Turn.noConfusion

theorem todo_lt_of_turn_token {split : Splitter} {s s' : Scanner}
    (h : s.turn split = .token s') : s'.todo < s.todo := by
  unfold turn at h
  split at h
  · exact absurd h (readOn_ne_token s s')
  · split at h
    · cases h
    · cases h
    · split at h
      · cases h
      · next hfar =>
        rw [List.isEmpty_iff, List.drop_eq_nil_iff] at hfar
        obtain rfl := Turn.token.inj h
        simp only [todo, List.length_drop]
        omega
    · split at h
      · cases h
      · exact absurd h (readOn_ne_token s s')

/-- Only a scanner that does not know of an end reads on. -/
theorem readOn_of_turn_read {split : Splitter} {s s' : Scanner} (h : s.turn split = .read s') :
    s.atEnd = false ∧ s.readOn = .read s' := by
  unfold turn at h
  split at h
  · next hempty => exact ⟨by simpa using (Bool.and_eq_true_iff.1 hempty).2, h⟩
  · split at h
    · cases h
    · cases h
    · split at h <;> cases h
    · split at h
      · cases h
      · next hend => exact ⟨Bool.eq_false_iff.2 hend, h⟩

theorem todo_lt_of_turn_read {split : Splitter} {s s' : Scanner} (h : s.turn split = .read s') :
    s'.todo < s.todo :=
  todo_lt_of_readOn (readOn_of_turn_read h).1 (readOn_of_turn_read h).2

/-- Count the tokens that a scanner finds, behind `count` others. -/
def countFrom (split : Splitter) (count : Nat) (s : Scanner) : Except ScanError Nat :=
  match h : s.turn split with
  | .token s' => countFrom split (count + 1) s'
  | .read s' => countFrom split count s'
  | .done => .ok count
  | .failed cause => .error cause
termination_by s.todo
decreasing_by
  · exact todo_lt_of_turn_token h
  · exact todo_lt_of_turn_read h

end Scanner

/-- The number of tokens of a text that is scanned. -/
def Splitter.countScanned (split : Splitter) (t : Text) : Except ScanError Nat :=
  Scanner.countFrom split 0 { unread := t }

end ModifierToggle
