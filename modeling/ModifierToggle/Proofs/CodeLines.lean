import ModifierToggle.Proofs.LineChange

set_option autoImplicit false

/-! # The code lines up to a header

Whatever is found out about a declaration is found out from a list of code lines. This file says
what a place in that list stands for: a line of the text, its number, and whether it is reached
inside a comment (`Buffer.codeLines_split`). The header of a declaration is the last of the code
lines up to it, and the only one that opens a declaration (`Buffer.findHeader?_split`). -/

namespace ModifierToggle

namespace CodeLine

/-- A line of some code lines is a line of the text, read after those above it. -/
theorem ofLines_split {first : Nat} {inBlock : Bool} {texts : List Text}
    {above below : List CodeLine} {l : CodeLine}
    (h : ofLines first inBlock texts = above ++ l :: below) :
    ∃ rest, texts = above.map (·.text) ++ l.text :: rest ∧
      l = ⟨first + above.length, l.text,
        (Comment.stripLine (Comment.openAfter inBlock (above.map (·.text))) l.text).1⟩ := by
  induction above generalizing first inBlock texts with
  | nil =>
    cases texts with
    | nil => cases h
    | cons x texts =>
      obtain ⟨rfl, -⟩ := List.cons.inj h
      exact ⟨texts, rfl, rfl⟩
  | cons l' above ih =>
    cases texts with
    | nil => cases h
    | cons x texts =>
      obtain ⟨rfl, hrest⟩ := List.cons.inj h
      obtain ⟨rest, rfl, hl⟩ := ih hrest
      refine ⟨rest, rfl, hl.trans ?_⟩
      rw [List.length_cons, Nat.add_right_comm, ← Nat.add_assoc]
      rfl

theorem ofLines_take (first : Nat) (inBlock : Bool) (texts : List Text) (n : Nat) :
    ofLines first inBlock (texts.take n) = (ofLines first inBlock texts).take n := by
  induction texts generalizing first inBlock n with
  | nil => simp [ofLines, Comment.stripLines, numbered]
  | cons x texts ih =>
    cases n with
    | zero => rfl
    | succ n => rw [List.take_succ_cons, ofLines_cons, ofLines_cons, List.take_succ_cons, ih]

end CodeLine

namespace LineEdit

variable {r : LineEdit}

theorem first?_eq_none {lines : List CodeLine} (h : ∀ l ∈ lines, r l = none) :
    r.first? lines = none := by
  rw [first?, List.findSome?_eq_none_iff]
  intro l hl
  simp [h l hl]

/-- The first line that a line edit takes, where empty lines do not count. -/
theorem first?_eq_some {above below : List CodeLine} {l : CodeLine} {new : Text}
    (habove : ∀ l' ∈ above, l'.text = [] ∨ r l' = none) (hne : l.text ≠ [])
    (hl : r l = some new) : r.first? (above ++ l :: below) = some (l, new) := by
  have hnone : above.findSome? (fun l => if l.text.isEmpty then none else
      (r l).map fun new => (l, new)) = none := by
    refine List.findSome?_eq_none_iff.2 fun l' hl' => ?_
    rcases habove l' hl' with htext | hnone
    · simp [htext]
    · simp [hnone]
  rw [first?, List.findSome?_append, hnone, Option.none_or, List.findSome?_cons, hl,
    if_neg (by simpa using hne)]
  rfl

/-- The first line that a line edit takes, if that line is not empty. -/
theorem first?_split {above below : List CodeLine} {l : CodeLine} {new : Text}
    (habove : ∀ l' ∈ above, r l' = none) (hne : l.text ≠ []) (hl : r l = some new) :
    r.first? (above ++ l :: below) = some (l, new) :=
  first?_eq_some (fun l' hl' => Or.inr (habove l' hl')) hne hl

/-- A line that is taken is one of the lines. -/
theorem exists_split_of_first? {lines : List CodeLine} {l : CodeLine} {new : Text}
    (h : r.first? lines = some (l, new)) :
    ∃ above below, lines = above ++ l :: below ∧ r l = some new := by
  obtain ⟨above, l', below, hlines, htaken, -⟩ := List.findSome?_eq_some_iff.1 h
  split at htaken
  · cases htaken
  · obtain ⟨new', hnew, heq⟩ := Option.map_eq_some_iff.1 htaken
    obtain ⟨rfl, rfl⟩ := Prod.mk.inj heq
    exact ⟨above, below, hlines, hnew⟩

end LineEdit

namespace Buffer

variable {b : Buffer} {span : Span}

theorem codeLines_eq (b : Buffer) (span : Span) :
    b.codeLines span = CodeLine.ofLines span.first.toNat false
      ((b.text.lines.take (span.last + 1).toNat).drop span.first.toNat) := rfl

/-- What a code line of a span stands for. -/
theorem codeLines_split {above below : List CodeLine} {l : CodeLine}
    (h : b.codeLines span = above ++ l :: below) :
    l.number = span.first.toNat + above.length ∧ b.text.lines[l.number]? = some l.text ∧
      (l.number : Int) ≤ span.last ∧
      l.code = (Comment.stripLine (Comment.openAfter false (above.map (·.text))) l.text).1 := by
  obtain ⟨rest, htexts, hl⟩ := CodeLine.ofLines_split h
  have hnumber : l.number = span.first.toNat + above.length := congrArg CodeLine.number hl
  have hline : ((b.text.lines.take (span.last + 1).toNat).drop span.first.toNat)[above.length]?
      = some l.text := by
    rw [htexts, List.getElem?_append_right (by simp)]
    simp
  rw [List.getElem?_drop, ← hnumber, List.getElem?_take] at hline
  split at hline
  · next hlt => exact ⟨hnumber, hline, by omega, congrArg CodeLine.code hl⟩
  · cases hline

theorem number_lt_of_mem_above {above below : List CodeLine} {l l' : CodeLine}
    (h : b.codeLines span = above ++ l :: below) (hl' : l' ∈ above) : l'.number < l.number := by
  obtain ⟨above', below', rfl⟩ := List.append_of_mem hl'
  rw [(codeLines_split h).1]
  rw [List.append_assoc, List.cons_append] at h
  rw [(codeLines_split h).1]
  simp only [List.length_append, List.length_cons]
  omega

/-- A shorter span has fewer code lines. -/
theorem codeLines_take {last : Int} (h : last ≤ span.last) :
    b.codeLines ⟨span.first, last⟩
      = (b.codeLines span).take ((last + 1).toNat - span.first.toNat) := by
  have htexts : (b.text.lines.take (last + 1).toNat).drop span.first.toNat
      = ((b.text.lines.take (span.last + 1).toNat).drop span.first.toNat).take
          ((last + 1).toNat - span.first.toNat) := by
    rw [List.drop_take, List.drop_take, List.take_take]
    congr 1
    omega
  rw [codeLines_eq, codeLines_eq, ← CodeLine.ofLines_take, ← htexts]

/-- The code lines up to one of them are the same in a shorter span. -/
theorem codeLines_upTo {above below : List CodeLine} {l : CodeLine}
    (h : b.codeLines span = above ++ l :: below) :
    b.codeLines ⟨span.first, l.number⟩ = above ++ [l] := by
  obtain ⟨hnumber, -, hlast, -⟩ := codeLines_split h
  have hcount : ((l.number : Int) + 1).toNat - span.first.toNat = above.length + 1 := by omega
  rw [codeLines_take hlast, h, hcount, List.take_append, List.take_of_length_le (by omega)]
  simp

/-- The code of the last line of a span is that of its code line. -/
theorem code_eq {first : Int} {above : List CodeLine} {l : CodeLine}
    (h : b.codeLines ⟨first, l.number⟩ = above ++ [l]) : b.code first l.number = l.code := by
  have hnumber : l.number = first.toNat + above.length := (codeLines_split h).1
  rw [code, Int.min_eq_left (by omega), h, List.getLast?_concat]
  exact if_pos rfl

/-- **The header is the last code line up to it, and the only one that opens a declaration.** -/
theorem findHeader?_split {lang : Language} {header : Header}
    (h : b.findHeader? lang span = some header) :
    ∃ above l at_, b.codeLines ⟨span.first, header.line⟩ = above ++ [l] ∧
      (∀ l' ∈ above, l'.start? lang = none) ∧ l.start? lang = some at_ ∧
      header = ⟨l.number, at_.start, at_.next⟩ := by
  obtain ⟨above, l, below, hlines, hl, habove⟩ := List.findSome?_eq_some_iff.1 h
  obtain ⟨at_, hat, rfl⟩ := Option.map_eq_some_iff.1 hl
  refine ⟨above, l, at_, codeLines_upTo hlines, fun l' hl' => ?_, hat, rfl⟩
  simpa using habove l' hl'

/-- The header of an inspected declaration is the one that is found in its span. -/
theorem findHeader?_of_inspect? {lang : Language} {found : Found} {s : Inspection}
    (h : b.inspect? lang found = some s) :
    b.findHeader? lang s.target.span = some s.header := by
  unfold inspect? at h
  split at h
  · cases h
  · obtain ⟨header, hheader, rfl⟩ := Option.map_eq_some_iff.1 h
    exact hheader

end Buffer

end ModifierToggle
