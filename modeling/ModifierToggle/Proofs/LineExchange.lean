import ModifierToggle.Proofs.NormalizeInspection

set_option autoImplicit false

/-! # A line of a span exchanged

Most edits write one line. The span that ends at this line has the same lines above it afterwards,
and the line is read after them as before (`Buffer.codeLines_withLine`). -/

namespace ModifierToggle

open Comment (stripLine openAfter)

theorem CodeLine.map_text_ofLines (first : Nat) (inBlock : Bool) (texts : List Text) :
    (ofLines first inBlock texts).map (·.text) = texts := by
  induction texts generalizing first inBlock with
  | nil => rfl
  | cons x texts ih => rw [ofLines_cons, List.map_cons, ih]

/-- A line that is set is exchanged, and nothing else. -/
theorem Step.setLine_withLine (scope : Option ToggleScope) {w : Work} (hw : w.writesLeft ≠ some 0)
    {l : CodeLine} (hl : w.buffer.text.lines[l.number]? = some l.text) (y : Text) :
    (setLine scope l y w).error = none ∧
      (setLine scope l y w).work.buffer.text = w.buffer.withLine l.number y := by
  obtain ⟨number, x, code⟩ := l
  obtain ⟨s, hfill, rfl, hnewline, hfits⟩ := Text.exists_site hl
  have hx := hfits x hnewline id
  rw [hx.withLine hfill.symm]
  exact setLine_fill scope hx code y hw hfill.symm

namespace Buffer

variable {b b' : Buffer} {first : Int} {y : Text}

theorem spanLines_eq_map (b : Buffer) (span : Span) :
    b.spanLines span = (b.codeLines span).map (·.text) :=
  (CodeLine.map_text_ofLines span.first.toNat false (b.spanLines span)).symm

/-- A line that is exchanged is read as it is written, and can be exchanged for the old one. -/
theorem lines_withLine {n : Nat} {x : Text} (hx : b.text.lines[n]? = some x)
    (hy : Byte.newline ∉ y) (hlast : y.getLast? = x.getLast?) (hb' : b'.text = b.withLine n y) :
    b'.text.lines[n]? = some y ∧ b'.withLine n x = b.text := by
  obtain ⟨s, hfill, rfl, hnewline, hfits⟩ := Text.exists_site hx
  have hx' := hfits x hnewline id
  have hy' := hfits y hy (by rw [hlast]; exact id)
  rw [hx'.withLine hfill.symm] at hb'
  refine ⟨?_, by rw [hy'.withLine hb', hfill]⟩
  rw [hb', hy'.lines]
  simp

/-- The lines of a span that ends at the line. -/
theorem spanLines_withLine {n : Nat} {x : Text} (hx : b.text.lines[n]? = some x)
    (hfirst : first.toNat ≤ n) (hy : Byte.newline ∉ y) (hlast : y.getLast? = x.getLast?)
    (hb' : b'.text = b.withLine n y) :
    b.spanLines ⟨first, n⟩ = b.spanLines ⟨first, (n : Int) - 1⟩ ++ [x] ∧
      b'.spanLines ⟨first, n⟩ = b.spanLines ⟨first, (n : Int) - 1⟩ ++ [y] := by
  obtain ⟨s, hfill, rfl, hnewline, hfits⟩ := Text.exists_site hx
  have hx' := hfits x hnewline id
  have hy' := hfits y hy (by rw [hlast]; exact id)
  rw [hx'.withLine hfill.symm] at hb'
  have hcount : ((s.above.length : Int) + 1).toNat = s.above.length + 1 := by omega
  have hcount' : ((s.above.length : Int) - 1 + 1).toNat = s.above.length := by omega
  -- the lines up to the gap, whatever fills it
  have htake : ∀ z : Text, ((s.above ++ z :: s.below).take (s.above.length + 1)).drop first.toNat
      = s.above.drop first.toNat ++ [z] := by
    intro z
    rw [List.take_append, List.take_of_length_le (by omega), Nat.add_sub_cancel_left,
      List.take_one, List.drop_append_of_le_length hfirst]
    rfl
  have habove : b.spanLines ⟨first, (s.above.length : Int) - 1⟩ = s.above.drop first.toNat := by
    rw [spanLines, hcount', ← hfill, hx'.lines, List.take_left]
  rw [habove]
  constructor
  · rw [spanLines, hcount, ← hfill, hx'.lines, htake]
  · rw [spanLines, hcount, hb', hy'.lines, htake]

/-- The code lines of a span in which one line is exchanged. -/
theorem codeLines_exchanged {span : Span} {above below : List CodeLine} {l : CodeLine}
    (hlines : b.codeLines span = above ++ l :: below) {z : Text} {rest : List Text}
    (htexts : b.spanLines span = above.map (·.text) ++ l.text :: rest)
    (htexts' : b'.spanLines span = above.map (·.text) ++ z :: rest) :
    b'.codeLines span
      = above ++ ⟨l.number, z, (stripLine (openAfter false (above.map (·.text))) z).1⟩
        :: CodeLine.ofLines (l.number + 1)
          (stripLine (openAfter false (above.map (·.text))) z).2 rest := by
  have hofLines : ∀ (b : Buffer) (z : Text), b.spanLines span = above.map (·.text) ++ z :: rest →
      b.codeLines span = CodeLine.ofLines span.first.toNat false (above.map (·.text))
        ++ CodeLine.ofLines (span.first.toNat + above.length)
          (openAfter false (above.map (·.text))) (z :: rest) := by
    intro b z hz
    have happend := CodeLine.ofLines_append span.first.toNat false (above.map (·.text)) (z :: rest)
    rw [← hz, List.length_map] at happend
    exact happend
  have habove : CodeLine.ofLines span.first.toNat false (above.map (·.text)) = above := by
    rw [hofLines b _ htexts] at hlines
    refine (List.append_inj hlines ?_).1
    rw [← List.length_map (·.text), CodeLine.map_text_ofLines, List.length_map]
  obtain ⟨hnumber, -⟩ := codeLines_split hlines
  rw [hofLines b' _ htexts', habove, CodeLine.ofLines_cons, hnumber]

/-- The code lines of a span that ends at the line. -/
theorem codeLines_withLine {above : List CodeLine} {l : CodeLine}
    (hlines : b.codeLines ⟨first, l.number⟩ = above ++ [l]) (hy : Byte.newline ∉ y)
    (hlast : y.getLast? = l.text.getLast?) (hb' : b'.text = b.withLine l.number y) :
    b.spanLines ⟨first, (l.number : Int) - 1⟩ = above.map (·.text) ∧
      b'.codeLines ⟨first, l.number⟩
        = above ++ [⟨l.number, y, (stripLine (openAfter false (above.map (·.text))) y).1⟩] := by
  obtain ⟨hnumber, hx, -, -⟩ := codeLines_split hlines
  have hfirst : first.toNat ≤ l.number := Nat.le.intro hnumber.symm
  obtain ⟨hold, hnew⟩ := spanLines_withLine hx hfirst hy hlast hb'
  have htexts : b.spanLines ⟨first, l.number⟩ = above.map (·.text) ++ [l.text] := by
    rw [spanLines_eq_map, hlines, List.map_append]
    rfl
  have habove := (List.append_inj' (hold.symm.trans htexts) rfl).1
  rw [habove] at hnew
  exact ⟨habove, codeLines_exchanged hlines htexts hnew⟩

theorem code_withLine {above : List CodeLine} {l : CodeLine}
    (hlines : b.codeLines ⟨first, l.number⟩ = above ++ [l]) (hy : Byte.newline ∉ y)
    (hlast : y.getLast? = l.text.getLast?) (hb' : b'.text = b.withLine l.number y) :
    b'.code first l.number = (stripLine (openAfter false (above.map (·.text))) y).1 :=
  code_eq (l := ⟨l.number, y, _⟩) (codeLines_withLine hlines hy hlast hb').2

end Buffer

end ModifierToggle
