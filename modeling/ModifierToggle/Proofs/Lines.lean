import Mathlib.Data.List.Basic
import Mathlib.Tactic.Common
import ModifierToggle.Buffer.Basic

set_option autoImplicit false

/-! # Lines and the parts between newlines

`LineSpan.scan` finds the extents of lines in one walk over the text. Here the same extents are read
off the parts of the text between its newlines: a part that a newline follows is a line, less a
carriage return it may end with, and the last part is a line as it stands (`Text.lineSpans_eq`,
`Text.lines_eq`).

Parts are independent of each other, so one of them can be exchanged. A `LineSite` is a text with a
gap where one of its lines stands; whatever fills the gap, the other lines stay as they are
(`Text.exists_site`). -/

namespace ModifierToggle

namespace Text

/-! ## From parts to lines -/

/-- The line a part stands for, when a newline follows the part. -/
def withoutReturn (part : Text) : Text :=
  if part.getLast? = some Byte.carriageReturn then part.dropLast else part

/-- The lines that the parts between newlines stand for. -/
def contents : List Text → List Text
  | [] => []
  | [part] => [part]
  | part :: next :: parts => withoutReturn part :: contents (next :: parts)

/-- The extents of these lines, where the first part starts at offset `start`. -/
def extents (start : Nat) : List Text → List LineSpan
  | [] => []
  | [part] => [⟨start, start + part.length⟩]
  | part :: next :: parts =>
    ⟨start, start + (withoutReturn part).length⟩
      :: extents (start + part.length + 1) (next :: parts)

theorem withoutReturn_append_return (x : Text) :
    withoutReturn (x ++ [Byte.carriageReturn]) = x := by
  simp [withoutReturn]

theorem withoutReturn_eq_self {x : Text} (h : x.getLast? ≠ some Byte.carriageReturn) :
    withoutReturn x = x := by
  simp [withoutReturn, h]

/-- A part is its line, with or without a carriage return behind it. -/
theorem withoutReturn_cases (part : Text) :
    part = withoutReturn part ++ [Byte.carriageReturn] ∨
      (part = withoutReturn part ∧ part.getLast? ≠ some Byte.carriageReturn) := by
  by_cases h : part.getLast? = some Byte.carriageReturn
  · left
    obtain ⟨x, rfl⟩ := List.getLast?_eq_some_iff.1 h
    rw [withoutReturn_append_return]
  · exact Or.inr ⟨(withoutReturn_eq_self h).symm, h⟩

theorem contents_cons {parts : List Text} (part : Text) (h : parts ≠ []) :
    contents (part :: parts) = withoutReturn part :: contents parts := by
  obtain ⟨next, rest, rfl⟩ := List.exists_cons_of_ne_nil h
  rfl

theorem extents_cons {parts : List Text} (start : Nat) (part : Text) (h : parts ≠ []) :
    extents start (part :: parts)
      = ⟨start, start + (withoutReturn part).length⟩
        :: extents (start + part.length + 1) parts := by
  obtain ⟨next, rest, rfl⟩ := List.exists_cons_of_ne_nil h
  rfl

theorem contents_length (parts : List Text) : (contents parts).length = parts.length := by
  induction parts with
  | nil => rfl
  | cons part parts ih =>
    cases parts with
    | nil => rfl
    | cons next rest =>
        rw [contents_cons part (List.cons_ne_nil _ _), List.length_cons, ih]
        rfl

/-! ## The walk over a text finds these extents -/

/-- A newline-free front `u` of the line being read has been passed, and `t` is left. -/
theorem scan_eq_extents (t u : Text) (start : Nat) (hu : Byte.newline ∉ u) :
    LineSpan.scan start (start + u.length) (u.getLast? == some Byte.carriageReturn) t
      = extents start (List.splitOn Byte.newline (u ++ t)) := by
  induction t generalizing u start with
  | nil =>
    rw [List.append_nil, List.splitOn_eq_singleton hu]
    rfl
  | cons b t ih =>
    rw [LineSpan.scan]
    by_cases hb : b = Byte.newline
    · -- the part `u` is complete, and the walk starts afresh with an empty one
      subst hb
      have hstop : (if (u.getLast? == some Byte.carriageReturn) = true then start + u.length - 1
          else start + u.length) = start + (withoutReturn u).length := by
        by_cases hr : u.getLast? = some Byte.carriageReturn
        · obtain ⟨x, rfl⟩ := List.getLast?_eq_some_iff.1 hr
          rw [withoutReturn_append_return]
          simp
        · rw [withoutReturn_eq_self hr]
          simp [hr]
      have hnext := ih [] (start + u.length + 1) (by simp)
      simp only [List.length_nil, Nat.add_zero, List.nil_append, List.getLast?_nil] at hnext
      rw [List.splitOn_append_cons_self_of_not_mem hu,
        extents_cons _ _ (List.splitOn_ne_nil _ _), ← hnext, if_pos (BEq.rfl), hstop]
      rfl
    · have hu' : Byte.newline ∉ u ++ [b] := by
        simp only [List.mem_append, List.mem_singleton, not_or]
        exact ⟨hu, fun h => hb h.symm⟩
      have hnext := ih (u ++ [b]) start hu'
      simp only [List.length_append, List.length_singleton, List.append_assoc,
        List.singleton_append, List.getLast?_append, List.getLast?_singleton,
        Option.some_or] at hnext
      simp only [beq_iff_eq, hb, if_false]
      rw [← hnext, Nat.add_assoc]
      rfl

theorem lineSpans_eq (t : Text) : t.lineSpans = extents 0 (List.splitOn Byte.newline t) := by
  have h := scan_eq_extents t [] 0 (by simp)
  simpa [lineSpans] using h

/-! ## The text as its parts -/

/-- A text whose parts are `above`, `part` and `below`, in this order. -/
theorem intercalate_eq (above : List Text) (part : Text) (below : List Text) :
    [Byte.newline].intercalate (above ++ part :: below)
      = above.flatMap (· ++ [Byte.newline]) ++ part ++ below.flatMap (Byte.newline :: ·) := by
  induction above with
  | nil =>
    rw [List.nil_append, List.flatMap_nil, List.nil_append]
    induction below generalizing part with
    | nil => simp
    | cons next below ih => rw [List.intercalate_cons_cons, ih]; simp
  | cons first above ih =>
    have hne : above ++ part :: below ≠ [] := by simp
    rw [List.cons_append, List.intercalate_cons_of_ne_nil hne, ih]
    simp

theorem newline_notMem_of_mem_splitOn {t part : Text}
    (h : part ∈ List.splitOn Byte.newline t) : Byte.newline ∉ part := by
  induction t generalizing part with
  | nil => simp_all
  | cons b t ih =>
    rw [List.splitOn_cons_eq_if_modifyHead] at h
    split at h
    · rcases List.mem_cons.1 h with rfl | h
      · simp
      · exact ih h
    · next hb =>
        obtain ⟨first, rest, hsplit⟩ :=
          List.exists_cons_of_ne_nil (List.splitOn_ne_nil Byte.newline t)
        rw [hsplit, List.modifyHead_cons] at h
        rcases List.mem_cons.1 h with rfl | h
        · simp only [List.mem_cons, not_or]
          exact ⟨fun he => hb (by simp [he]), ih (hsplit ▸ List.mem_cons_self)⟩
        · exact ih (hsplit ▸ List.mem_cons_of_mem _ h)

/-- The line at the end of the parts, or the line of a part that others follow. -/
def contentOf (part : Text) (below : List Text) : Text :=
  if below = [] then part else withoutReturn part

theorem contents_append (above : List Text) (part : Text) (below : List Text) :
    contents (above ++ part :: below)
      = above.map withoutReturn ++ contentOf part below :: contents below := by
  induction above with
  | nil =>
    cases below with
    | nil => rfl
    | cons next rest => rfl
  | cons first above ih =>
    rw [List.cons_append, contents_cons first (by simp), ih]
    rfl

/-- The extent of the line of a part. -/
theorem extents_getElem? (start : Nat) (above : List Text) (part : Text) (below : List Text) :
    (extents start (above ++ part :: below))[above.length]?
      = some ⟨start + (above.flatMap (· ++ [Byte.newline])).length,
          start + (above.flatMap (· ++ [Byte.newline])).length
            + (contentOf part below).length⟩ := by
  induction above generalizing start with
  | nil =>
    cases below with
    | nil => rfl
    | cons next rest => rfl
  | cons first above ih =>
    rw [List.cons_append, extents_cons start first (by simp), List.length_cons,
      List.getElem?_cons_succ, ih]
    simp only [List.flatMap_cons, List.length_append, List.length_singleton]
    congr 2 <;> omega

/-- The extents cut the lines out of the text. `pre` is what stands before the parts. -/
theorem map_slice_extents (parts : List Text) (pre : Text) :
    (extents pre.length parts).map
        (fun s => (pre ++ [Byte.newline].intercalate parts).slice s.start s.stop)
      = contents parts := by
  induction parts generalizing pre with
  | nil => rfl
  | cons part parts ih =>
    -- a line is a front of its part, so it is what stands at the start of the extent
    have hfront : ∀ x rest : Text, (pre ++ (x ++ rest)).slice pre.length (pre.length + x.length) = x
        := by
      intro x rest
      rw [slice, ← List.append_assoc, ← List.length_append, List.take_left, List.drop_left]
    cases parts with
    | nil =>
      have := hfront part []
      simpa [extents, contents] using this
    | cons next rest =>
      have hne : next :: rest ≠ [] := List.cons_ne_nil _ _
      have hnext := ih (pre ++ part ++ [Byte.newline])
      simp only [List.length_append, List.length_singleton, List.append_assoc] at hnext
      rw [extents_cons _ _ hne, contents_cons _ hne, List.map_cons,
        List.intercalate_cons_of_ne_nil hne]
      simp only [List.append_assoc]
      rw [Nat.add_assoc, hnext]
      congr 1
      rcases withoutReturn_cases part with hpart | ⟨hpart, -⟩
      · have := hfront (withoutReturn part)
          ([Byte.carriageReturn] ++ ([Byte.newline] ++ [Byte.newline].intercalate (next :: rest)))
        rwa [← List.append_assoc (withoutReturn part), ← hpart] at this
      · have := hfront (withoutReturn part)
          ([Byte.newline] ++ [Byte.newline].intercalate (next :: rest))
        rwa [← hpart] at this ⊢

theorem lines_eq (t : Text) : t.lines = contents (List.splitOn Byte.newline t) := by
  have h := map_slice_extents (List.splitOn Byte.newline t) []
  rw [List.intercalate_splitOn] at h
  rw [lines, lineSpans_eq]
  exact h

end Text

/-! ## Exchanging a line -/

/-- A text with a gap where a line stands: what is before and after the gap, and the lines there. -/
structure LineSite where
  before : Text
  after : Text
  above : List Text
  below : List Text
  deriving Repr, DecidableEq

namespace LineSite

/-- The text with the gap filled. -/
def fill (s : LineSite) (x : Text) : Text := s.before ++ x ++ s.after

/-- What fills the gap is one line of the text, and the lines above and below are as they are. -/
structure Fits (s : LineSite) (x : Text) : Prop where
  lines : (s.fill x).lines = s.above ++ x :: s.below
  span : (s.fill x).lineSpans[s.above.length]?
    = some ⟨s.before.length, s.before.length + x.length⟩

end LineSite

/-- The gap for the line of `part`, where `ending` is what the part has behind its line. -/
def LineSite.ofParts (above : List Text) (ending : Text) (below : List Text) : LineSite where
  before := above.flatMap (· ++ [Byte.newline])
  after := ending ++ below.flatMap (Byte.newline :: ·)
  above := above.map Text.withoutReturn
  below := Text.contents below

theorem LineSite.ofParts_fill (above : List Text) (ending : Text) (below : List Text) (y : Text) :
    (ofParts above ending below).fill y
      = [Byte.newline].intercalate (above ++ (y ++ ending) :: below) := by
  rw [Text.intercalate_eq]
  simp [fill, ofParts]

section

variable {above below : List Text} {ending x y : Text}

/-- The parts of a text with the gap filled. -/
theorem LineSite.splitOn_fill (habove : ∀ part ∈ above, Byte.newline ∉ part)
    (hbelow : ∀ part ∈ below, Byte.newline ∉ part) (hy : Byte.newline ∉ y ++ ending) :
    List.splitOn Byte.newline ((ofParts above ending below).fill y)
      = above ++ (y ++ ending) :: below := by
  rw [ofParts_fill]
  refine List.splitOn_intercalate _ (fun part hpart => ?_) (by simp)
  rcases List.mem_append.1 hpart with h | h
  · exact habove part h
  · rcases List.mem_cons.1 h with rfl | h
    · exact hy
    · exact hbelow part h

theorem LineSite.ofParts_fits (habove : ∀ part ∈ above, Byte.newline ∉ part)
    (hbelow : ∀ part ∈ below, Byte.newline ∉ part) (hy : Byte.newline ∉ y ++ ending)
    (hcontent : Text.contentOf (y ++ ending) below = y) :
    (LineSite.ofParts above ending below).Fits y := by
  have hsplit := splitOn_fill habove hbelow hy
  constructor
  · rw [Text.lines_eq, hsplit, Text.contents_append, hcontent]
    rfl
  · have hlen : (LineSite.ofParts above ending below).above.length = above.length := by
      simp [ofParts]
    rw [Text.lineSpans_eq, hsplit, hlen, Text.extents_getElem?, hcontent, Nat.zero_add]
    rfl

namespace Text

/-- What a part has behind its line. -/
def IsEnding (ending : Text) : Prop := ending = [] ∨ ending = [Byte.carriageReturn]

theorem IsEnding.newline_notMem (h : IsEnding ending) (hy : Byte.newline ∉ y) :
    Byte.newline ∉ y ++ ending := by
  rcases h with rfl | rfl
  · simpa using hy
  · rw [List.mem_append, List.mem_singleton]
    exact fun hmem => hmem.elim hy (by decide)

/-- Another line of a part with the same ending, which ends with a carriage return only if the line
    there was does. -/
theorem IsEnding.contentOf_append (h : IsEnding ending) (hx : contentOf (x ++ ending) below = x)
    (hyx : y.getLast? = some Byte.carriageReturn → x.getLast? = some Byte.carriageReturn) :
    contentOf (y ++ ending) below = y := by
  unfold contentOf at hx ⊢
  split at hx
  · next hbelow =>
    have hnil : ending = [] := List.append_right_eq_self.1 hx
    rw [if_pos hbelow, hnil, List.append_nil]
  · next hbelow =>
    rw [if_neg hbelow]
    rcases h with rfl | rfl
    · rw [List.append_nil] at hx ⊢
      refine withoutReturn_eq_self fun hy => ?_
      have hlast := hyx hy
      have hlength : x.dropLast.length = x.length := by
        rw [withoutReturn, if_pos hlast] at hx
        rw [hx]
      have hne : x ≠ [] := by
        rintro rfl
        cases hlast
      have hpos := List.length_pos_iff.2 hne
      rw [List.length_dropLast] at hlength
      omega
    · exact withoutReturn_append_return y

/-- A line and its ending make up a part. -/
theorem exists_part {t : Text} {n : Nat} (h : t.lines[n]? = some x) :
    ∃ above ending below, List.splitOn Byte.newline t = above ++ (x ++ ending) :: below ∧
      above.length = n ∧ IsEnding ending ∧ contentOf (x ++ ending) below = x := by
  have hn : n < (List.splitOn Byte.newline t).length := by
    have := (List.getElem?_eq_some_iff.1 h).1
    rwa [lines_eq, contents_length] at this
  obtain ⟨above, part, below, hsplit, hlen⟩ : ∃ above part below,
      List.splitOn Byte.newline t = above ++ part :: below ∧ above.length = n := by
    refine ⟨(List.splitOn Byte.newline t).take n, (List.splitOn Byte.newline t)[n],
      (List.splitOn Byte.newline t).drop (n + 1), ?_, List.length_take_of_le (Nat.le_of_lt hn)⟩
    rw [List.getElem_cons_drop hn, List.take_append_drop]
  have hx : contentOf part below = x := by
    rw [lines_eq, hsplit, contents_append, ← hlen] at h
    simpa using h
  have hending : ∃ ending, IsEnding ending ∧ part = x ++ ending := by
    unfold contentOf at hx
    split at hx
    · exact ⟨[], Or.inl rfl, by simpa using hx⟩
    · rcases withoutReturn_cases part with hreturn | ⟨hself, -⟩
      · exact ⟨[Byte.carriageReturn], Or.inr rfl, hx ▸ hreturn⟩
      · exact ⟨[], Or.inl rfl, by rw [← hx, List.append_nil]; exact hself⟩
  obtain ⟨ending, hending, rfl⟩ := hending
  exact ⟨above, ending, below, hsplit, hlen, hending, hx⟩

/-- **Every line stands in a gap that other lines fit into.** A line fits if it has no newline, and
    ends with a carriage return only if the line it replaces does. -/
theorem exists_site {t : Text} {n : Nat} (h : t.lines[n]? = some x) :
    ∃ s : LineSite, s.fill x = t ∧ s.above.length = n ∧ Byte.newline ∉ x ∧
      ∀ y, Byte.newline ∉ y →
        (y.getLast? = some Byte.carriageReturn → x.getLast? = some Byte.carriageReturn) →
        s.Fits y := by
  obtain ⟨above, ending, below, hsplit, hlen, hending, hx⟩ := exists_part h
  have hfree : ∀ p ∈ above ++ (x ++ ending) :: below, Byte.newline ∉ p := fun p hp =>
    newline_notMem_of_mem_splitOn (hsplit ▸ hp)
  have habove : ∀ p ∈ above, Byte.newline ∉ p := fun p hp => hfree p (List.mem_append_left _ hp)
  have hbelow : ∀ p ∈ below, Byte.newline ∉ p := fun p hp =>
    hfree p (List.mem_append_right _ (List.mem_cons_of_mem _ hp))
  refine ⟨LineSite.ofParts above ending below, ?_, ?_, ?_, fun y hy hyx => ?_⟩
  · rw [LineSite.ofParts_fill, ← hsplit, List.intercalate_splitOn]
  · simpa [LineSite.ofParts] using hlen
  · exact fun hmem => hfree (x ++ ending) (by simp) (List.mem_append_left _ hmem)
  · exact LineSite.ofParts_fits habove hbelow (hending.newline_notMem hy)
      (hending.contentOf_append hx hyx)

end Text

end

end ModifierToggle
