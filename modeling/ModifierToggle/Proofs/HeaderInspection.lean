import ModifierToggle.Proofs.HeaderSteps

set_option autoImplicit false

/-! # Inspecting a header

Inspection of a declaration whose header line is in its usual form comes to looking at the words of
the line: a modifier is there if its keyword is among the words (`HeaderWords.has`), and the
visibility is the first visibility keyword among them (`HeaderWords.visibility`). Lines of the
declaration above the header have no part in it, since they hold no words of code. -/

namespace ModifierToggle

/-! ## What the words say -/

namespace HeaderWords

/-- Whether the token of a modifier is among the words. -/
def has (lang : Language) (ws : List Text) (m : Modifier) : Bool :=
  (lang.token? m).any fun tok => ws.contains tok.keyword

/-- The visibility that the words spell out, or else the one that goes without saying. -/
def visibility (lang : Language) (kind : Kind) (ws : List Text) : Text :=
  (ws.find? lang.isVisibility).getD (lang.implicitVisibility kind)

end HeaderWords

/-- What inspection reports of a declaration with the header `f.line ws` on line `n`. -/
def HeaderFrame.inspection {lang : Language} (f : HeaderFrame lang) (found : Found) (n : Nat)
    (ws : List Text) : Inspection :=
  { found, kind := found.kind
    header := ⟨n, (f.front ws).length, (f.front ws).length + f.keyword.length + 1⟩
    visibility := HeaderWords.visibility lang found.kind ws
    present := Modifier.all.filter (HeaderWords.has lang ws) }

theorem HeaderFrame.has_inspection {lang : Language} (f : HeaderFrame lang) (found : Found)
    (n : Nat) (ws : List Text) (m : Modifier) :
    (f.inspection found n ws).has m = HeaderWords.has lang ws m := by
  have hall : m ∈ Modifier.all := by cases m <;> decide
  rw [Bool.eq_iff_iff, Inspection.has, List.contains_iff_mem]
  show m ∈ Modifier.all.filter (HeaderWords.has lang ws) ↔ _
  rw [List.mem_filter]
  exact ⟨fun h => h.2, fun h => ⟨hall, h⟩⟩

/-! ## Declarations with a header in its usual form -/

/-- The lines of the declaration include line `n`, which is `f.line ws`, and the lines of the
    declaration above it hold no words of code and leave no comment open. -/
structure Buffer.HeaderAt (b : Buffer) (found : Found) (n : Nat) {lang : Language}
    (f : HeaderFrame lang) (ws : List Text) : Prop where
  line : b.text.lines[n]? = some (f.line ws)
  words : ∀ w ∈ ws, lang.IsModifierWord w
  from_le : found.target.lineFrom ≤ n
  le_to : n ≤ found.target.lineTo
  noCode : ∀ code ∈ Comment.stripLines false
    ((b.text.lines.take n).drop found.target.lineFrom.toNat), ∀ x ∈ code, Byte.isWord x = false
  closed : Comment.openAfter false
    ((b.text.lines.take n).drop found.target.lineFrom.toNat) = false

/-- The engine reports nothing about the declaration that the text does not say. -/
structure Found.Unmarked (found : Found) : Prop where
  static : found.target.flags.has .static = false
  final : found.target.flags.has .final = false
  external : found.target.flags.has .external = false
  visibility : found.target.visibility = []

namespace Buffer.HeaderAt

variable {lang : Language} {f : HeaderFrame lang} {ws vs : List Text} {found : Found} {n : Nat}
  {b : Buffer}

/-- The gap in which the header stands. -/
theorem exists_site (h : b.HeaderAt found n f ws) :
    ∃ s : LineSite, s.above.length = n ∧ b.text = s.fill (f.line ws) ∧ s.Hosts f ∧
      s.Quiet found.target.lineFrom.toNat := by
  obtain ⟨s, hfill, hlength, hhost⟩ := f.exists_site h.line
  have habove : b.text.lines.take n = s.above := by
    rw [← hfill, (hhost ws h.words).lines, ← hlength, List.take_left]
  refine ⟨s, hlength, hfill.symm, hhost, ?_, ?_⟩
  · rw [← habove]
    exact h.noCode
  · rw [← habove]
    exact h.closed

/-- A declaration keeps its header when the words on it change. -/
theorem rewrite (h : b.HeaderAt found n f ws) {b' : Buffer}
    (hvs : ∀ v ∈ vs, lang.IsModifierWord v) (ht : b'.text = b.withLine n (f.line vs)) :
    b'.HeaderAt found n f vs := by
  obtain ⟨s, rfl, hfill, hhost, hquiet⟩ := h.exists_site
  rw [(hhost ws h.words).withLine hfill] at ht
  have hlines : b'.text.lines = s.above ++ f.line vs :: s.below := by
    rw [ht, (hhost vs hvs).lines]
  have habove : b'.text.lines.take s.above.length = s.above := by
    rw [hlines, List.take_left]
  refine ⟨?_, hvs, h.from_le, h.le_to, ?_, ?_⟩
  · rw [hlines, List.getElem?_append_right (Nat.le_refl _), Nat.sub_self]
    rfl
  · rw [habove]
    exact hquiet.noWords
  · rw [habove]
    exact hquiet.closed

/-! ## Inspecting it -/

/-- The header is found. -/
theorem findHeader?_eq (h : b.HeaderAt found n f ws) (hlang : lang.Regular) :
    b.findHeader? lang found.target.span
      = some ⟨n, (f.front ws).length, (f.front ws).length + f.keyword.length + 1⟩ := by
  obtain ⟨s, rfl, hfill, hhost, hquiet⟩ := h.exists_site
  obtain ⟨rest, hcode, -⟩ : ∃ rest, b.codeLines found.target.span
      = CodeLine.ofLines found.target.lineFrom.toNat false
          (s.above.drop found.target.lineFrom.toNat) ++ s.codeLine (f.line ws) :: rest ∧ _ :=
    LineSite.codeLines_fill found.target.span (hhost ws h.words) hfill hquiet h.from_le h.le_to
  -- no line above the header opens a declaration, as that would take a word
  have habove : (CodeLine.ofLines found.target.lineFrom.toNat false
      (s.above.drop found.target.lineFrom.toNat)).findSome?
      (fun l => (l.start? lang).map fun at_ => Header.mk l.number at_.start at_.next) = none := by
    rw [List.findSome?_eq_none_iff]
    intro l hl
    rw [CodeLine.start?, hlang.findStart?_noWord (hquiet.noWords_of_mem hl)]
    rfl
  rw [Buffer.findHeader?, hcode, List.findSome?_append, habove, Option.none_or,
    List.findSome?_cons, f.start?_line hlang h.words]
  rfl

/-- The code lines of the header span are lines without words, and the header. -/
theorem codeLines_eq (h : b.HeaderAt found n f ws) (hlang : lang.Regular) :
    ∃ (above : List CodeLine) (l : CodeLine),
      b.codeLines ⟨found.target.lineFrom, n⟩ = above ++ [l] ∧ l.number = n ∧
      l.code.take (f.front ws).length = f.front ws ∧
      ∀ l' ∈ above, l'.number ≠ n ∧ ∀ x ∈ l'.code, Byte.isWord x = false := by
  obtain ⟨s, rfl, hfill, hhost, hquiet⟩ := h.exists_site
  obtain ⟨rest, hcode, hrest⟩ := LineSite.codeLines_fill ⟨found.target.lineFrom, s.above.length⟩
    (hhost ws h.words) hfill hquiet h.from_le (Int.le_refl _)
  rw [hrest rfl] at hcode
  refine ⟨_, s.codeLine (f.line ws), hcode, rfl, ?_, fun l' hl' => ⟨?_, ?_⟩⟩
  · rw [f.code_line hlang fun w hw => (h.words w hw).1, List.take_left]
  · have hlt := CodeLine.number_lt_of_mem_ofLines hl'
    have hfrom := h.from_le
    rw [List.length_drop] at hlt
    simp only at hlt
    omega
  · exact hquiet.noWords_of_mem hl'

theorem hasToken_eq (h : b.HeaderAt found n f ws) (hlang : lang.Regular) {tok : Token}
    (htok : tok ∈ lang.tokens) (stop : Nat) :
    b.hasToken found.target.lineFrom ⟨n, (f.front ws).length, stop⟩ tok
      = ws.contains tok.keyword := by
  obtain ⟨above, l, hcode, hnumber, hfront, habove⟩ := h.codeLines_eq hlang
  have hnone : above.any (fun l' => (tok.find?
      (if l'.number = n then l'.code.take (f.front ws).length else l'.code)).isSome) = false := by
    rw [List.any_eq_false]
    intro l' hl'
    obtain ⟨hne, hnoWord⟩ := habove l' hl'
    rw [if_neg hne, Token.find?, (hlang.token_plain htok).find?_noWord hnoWord]
    simp
  have hheader : (tok.find? (f.front ws)).isSome = ws.contains tok.keyword := by
    rcases f.token_find?_front hlang h.words htok with ⟨hk, hfind⟩ | ⟨before, after, rfl, -, hfind⟩
    · rw [hfind, Option.isSome_none, eq_comm, ← Bool.not_eq_true, List.contains_iff_mem]
      exact hk
    · rw [hfind]
      simp
  rw [Buffer.hasToken, Buffer.modifierTexts, hcode, List.any_map, List.any_append]
  simp only [Function.comp_def]
  rw [hnone, Bool.false_or, List.any_cons, if_pos hnumber, hfront, hheader]
  simp

theorem visibilityOf_eq (h : b.HeaderAt found n f ws) (hlang : lang.Regular) (kind : Kind)
    (hvisibility : found.target.visibility = []) (stop : Nat) :
    b.visibilityOf lang kind found.target ⟨n, (f.front ws).length, stop⟩
      = HeaderWords.visibility lang kind ws := by
  obtain ⟨above, l, hcode, hnumber, hfront, -⟩ := h.codeLines_eq hlang
  have hbefore : (b.code found.target.lineFrom n).take (f.front ws).length = f.front ws := by
    rw [Buffer.code, Int.min_eq_left h.from_le, hcode, List.getLast?_concat]
    simp only [hnumber, if_true]
    exact hfront
  rw [Buffer.visibilityOf, hvisibility]
  simp only [List.isEmpty_nil, if_true, hbefore, HeaderWords.visibility]
  rcases f.findVisibility?_front hlang h.words with
    ⟨hnone, hfind⟩ | ⟨before, v, after, rfl, hv, hnone, hfind⟩
  · rw [hfind, List.find?_eq_none.2 (by simpa using hnone)]
    rfl
  · have hslice : (f.front (before ++ v :: after)).slice (f.front before).length
        ((f.front before).length + v.length) = v := by
      rw [f.front_word, Text.slice, ← List.append_assoc, ← List.length_append, List.take_left,
        List.drop_left]
    have hfirst : (before ++ v :: after).find? lang.isVisibility = some v := by
      rw [List.find?_append, List.find?_eq_none.2 (by simpa using hnone), List.find?_cons_of_pos hv]
      rfl
    rw [hfind, hfirst]
    exact hslice

/-- A declaration with a header in its usual form can be inspected, whatever the engine reports
    about it, and a token among the words shows. -/
theorem exists_inspection (h : b.HeaderAt found n f ws) (hlang : lang.Regular)
    (hkind : found.kind ≠ .none) :
    ∃ s, b.inspect? lang found = some s ∧ s.found = found ∧ s.kind = found.kind ∧
      s.header.line = n ∧ ∀ m, HeaderWords.has lang ws m = true → s.has m = true := by
  rw [Buffer.inspect?, if_neg hkind, h.findHeader?_eq hlang]
  refine ⟨_, rfl, rfl, rfl, rfl, fun m hm => ?_⟩
  have hall : m ∈ Modifier.all := by cases m <;> decide
  rw [Inspection.has, List.contains_iff_mem, List.mem_filter]
  refine ⟨hall, ?_⟩
  unfold HeaderWords.has at hm
  unfold Buffer.hasModifier
  cases htok : lang.token? m with
  | none =>
    rw [htok] at hm
    cases hm
  | some tok =>
    rw [htok, Option.any_some] at hm
    rw [Option.any_some, h.hasToken_eq hlang (HeaderWords.token_mem htok), hm]
    rfl

/-- **Inspection reports what the words say.** -/
theorem inspect?_eq (h : b.HeaderAt found n f ws) (hlang : lang.Regular)
    (hkind : found.kind ≠ .none) (hunmarked : found.Unmarked) :
    b.inspect? lang found = some (f.inspection found n ws) := by
  have hpresent : ∀ m, b.hasModifier lang found.target
      ⟨n, (f.front ws).length, (f.front ws).length + f.keyword.length + 1⟩ m
      = HeaderWords.has lang ws m := by
    intro m
    rw [Buffer.hasModifier, hunmarked.static, hunmarked.final, hunmarked.external]
    simp only [Bool.and_false, Bool.or_false, HeaderWords.has]
    cases htok : lang.token? m with
    | none => rfl
    | some tok => exact h.hasToken_eq hlang (HeaderWords.token_mem htok) _
  rw [Buffer.inspect?, if_neg hkind, h.findHeader?_eq hlang]
  simp only [Option.map_some, HeaderFrame.inspection,
    h.visibilityOf_eq hlang found.kind hunmarked.visibility, funext hpresent]

end Buffer.HeaderAt

end ModifierToggle
