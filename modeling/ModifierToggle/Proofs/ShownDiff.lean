import ModifierToggle.Proofs.DiffSides
import ModifierToggle.Proofs.MenuAgain
import ModifierToggle.Session

set_option autoImplicit false

/-! # What is shown of a difference

A difference is shown as lines behind signs, and read again when it is printed. Nothing is known of
the way in which it is found but what `LineDiff.IsLineDiff` says: its stretches make up both texts,
they are made of whole lines, and of equal texts all is kept. Texts that are cut between lines have
the lines of their parts (`Text.splitAfter_flatten`), so that the lines of the stretches are those
of the texts. They have no newline but at their end, which is not shown; so each line shown is one
line of what is printed (`Text.splitOn_lines`), and as it starts with a sign it is not taken for an
empty one. What stands behind either sign follows (`Session.diff_exact`).

The difference by lines is one that these laws hold of (`LineDiff.isLineDiff_byLines`). -/

namespace ModifierToggle

namespace Text

variable {b : UInt8}

/-! ## Splitting a text and putting it together -/

theorem flatten_splitAfter (b : UInt8) (t : Text) : (splitAfter b t).flatten = t := by
  fun_induction splitAfter b t with
  | case1 => rfl
  | case2 c rest hc ih => simp [ih]
  | case3 c rest hc hnil ih =>
    rw [hnil] at ih
    simp [← ih]
  | case4 c rest hc part parts hparts ih =>
    rw [hparts] at ih
    simp [← ih]

theorem splitAfter_eq_nil_iff {t : Text} : splitAfter b t = [] ↔ t = [] := by
  constructor
  · intro h
    rw [← flatten_splitAfter b t, h, List.flatten_nil]
  · rintro rfl
    rfl

theorem exists_cutAfter_cons (b c : UInt8) (t : Text) :
    ∃ part parts, cutAfter b (c :: t) = (c :: part) :: parts := by
  rw [cutAfter]
  split
  · exact ⟨[], _, rfl⟩
  · cases cutAfter b t with
    | nil => exact ⟨[], [], rfl⟩
    | cons part parts => exact ⟨part, parts, rfl⟩

/-- Of the parts, only the last may be empty, and the others are all there is to split. -/
theorem filter_cutAfter (b : UInt8) (t : Text) :
    (cutAfter b t).filter (!·.isEmpty) = splitAfter b t := by
  induction t with
  | nil => rfl
  | cons c t ih =>
    rw [cutAfter, splitAfter, ← ih]
    split
    · rfl
    · cases t with
      | nil => rfl
      | cons d t =>
        obtain ⟨part, parts, hparts⟩ := exists_cutAfter_cons b d t
        rw [hparts]
        rfl

/-- A text that ends at the byte, with another one behind it, has the parts of both. -/
theorem splitAfter_append {t : Text} (h : t.getLast? = some b) (rest : Text) :
    splitAfter b (t ++ rest) = splitAfter b t ++ splitAfter b rest := by
  induction t with
  | nil => cases h
  | cons c t ih =>
    cases t with
    | nil =>
      obtain rfl : c = b := by simpa using h
      simp [splitAfter]
    | cons d t =>
      rw [List.getLast?_cons_cons] at h
      have hparts : splitAfter b (d :: t) ≠ [] := by simp [splitAfter_eq_nil_iff]
      obtain ⟨part, parts, hsplit⟩ := List.exists_cons_of_ne_nil hparts
      rw [List.cons_append, splitAfter, splitAfter, ih h, hsplit]
      split <;> simp

/-- The texts are cut behind the byte only: one that another one follows ends with it. -/
def CutBehind (b : UInt8) (ts : List Text) : Prop :=
  ts.Pairwise fun t u => t = [] ∨ u = [] ∨ t.getLast? = some b

/-- **Texts that are cut behind the byte have the parts of the text they make up.** -/
theorem splitAfter_flatten {ts : List Text} (h : CutBehind b ts) :
    splitAfter b ts.flatten = ts.flatMap (splitAfter b) := by
  induction ts with
  | nil => rfl
  | cons t ts ih =>
    obtain ⟨ht, hts⟩ := List.pairwise_cons.1 h
    rw [List.flatten_cons, List.flatMap_cons, ← ih hts]
    by_cases hlast : t.getLast? = some b
    · exact splitAfter_append hlast _
    · by_cases hempty : t = []
      · rw [hempty]
        rfl
      · -- nothing follows
        have hrest : ts.flatten = [] := by
          rw [List.flatten_eq_nil_iff]
          intro u hu
          exact (ht u hu).resolve_left hempty |>.resolve_right hlast
        rw [hrest, List.append_nil]
        exact (List.append_nil _).symm

/-- All parts but the last end with the byte. -/
theorem pairwise_splitAfter (b : UInt8) (t : Text) :
    (splitAfter b t).Pairwise fun part _ => part.getLast? = some b := by
  fun_induction splitAfter b t with
  | case1 => exact List.Pairwise.nil
  | case2 c rest hc ih =>
    refine List.pairwise_cons.2 ⟨fun _ _ => ?_, ih⟩
    simpa using hc
  | case3 c rest hc hnil ih => exact List.pairwise_singleton _ _
  | case4 c rest hc part parts hparts ih =>
    rw [hparts] at ih
    obtain ⟨hpart, hrest⟩ := List.pairwise_cons.1 ih
    refine List.pairwise_cons.2 ⟨fun u hu => ?_, hrest⟩
    have hlast := hpart u hu
    cases part with
    | nil => cases hlast
    | cons d part => rwa [List.getLast?_cons_cons]

/-- Within a part of a text, the byte at which it is split stands at the end only. -/
theorem notMem_dropLast_of_mem_splitAfter {t part : Text} (h : part ∈ splitAfter b t) :
    b ∉ part.dropLast := by
  fun_induction splitAfter b t generalizing part with
  | case1 => cases h
  | case2 c rest hc ih =>
    rcases List.mem_cons.1 h with rfl | h
    · simp
    · exact ih h
  | case3 c rest hc hnil ih =>
    rw [List.mem_singleton.1 h]
    simp
  | case4 c rest hc first parts hparts ih =>
    rcases List.mem_cons.1 h with rfl | h
    · have hfirst := ih (hparts ▸ List.mem_cons_self)
      cases first with
      | nil => simp
      | cons d first =>
        rw [List.dropLast_cons_cons, List.mem_cons, not_or]
        exact ⟨by simpa using Ne.symm (by simpa using hc), hfirst⟩
    · exact ih (hparts ▸ List.mem_cons_of_mem _ h)

theorem splitOn_of_notMem {t : Text} (h : b ∉ t) : splitOn b t = [t] := by
  induction t with
  | nil => rfl
  | cons c t ih =>
    rw [List.mem_cons, not_or] at h
    obtain ⟨hc, ht⟩ := h
    rw [splitOn, if_neg (by simpa using Ne.symm hc), ih ht]

theorem splitOn_append_cons {t : Text} (h : b ∉ t) (rest : Text) :
    splitOn b (t ++ b :: rest) = t :: splitOn b rest := by
  induction t with
  | nil => simp [splitOn]
  | cons c t ih =>
    rw [List.mem_cons, not_or] at h
    obtain ⟨hc, ht⟩ := h
    rw [List.cons_append, splitOn, if_neg (by simpa using Ne.symm hc), ih ht]

/-- Lines with a newline behind each are found again, and an empty one behind the last. -/
theorem splitOn_lines {lines : List Text} (h : ∀ line ∈ lines, b ∉ line) (last : Text)
    (hlast : b ∉ last) :
    splitOn b (lines.flatMap (· ++ [b]) ++ last) = lines ++ [last] := by
  induction lines with
  | nil => exact splitOn_of_notMem hlast
  | cons line lines ih =>
    obtain ⟨hline, hlines⟩ := List.forall_mem_cons.1 h
    rw [List.flatMap_cons, List.append_assoc, List.append_assoc, List.singleton_append,
      splitOn_append_cons hline, ih hlines]
    rfl

/-! ## Lines without their ends -/

theorem mem_of_mem_trimEndWhile {p : UInt8 → Bool} {c : UInt8} {t : Text}
    (h : c ∈ t.trimEndWhile p) : c ∈ t := by
  rw [trimEndWhile, List.mem_reverse] at h
  exact List.mem_reverse.1 ((List.dropWhile_sublist p).subset h)

/-- No newline is left in a whole line without its end. -/
theorem newline_notMem_withoutLineEnd {line : Text} (h : Byte.newline ∉ line.dropLast) :
    Byte.newline ∉ line.withoutLineEnd := by
  rcases List.eq_nil_or_concat line with rfl | ⟨front, c, rfl⟩
  · exact List.not_mem_nil
  · rw [List.concat_eq_append, List.dropLast_concat] at h
    intro hmem
    rw [List.concat_eq_append, withoutLineEnd] at hmem
    by_cases hc : c = Byte.newline
    · have htrim : trimEndWhile (fun b => b == Byte.carriageReturn || b == Byte.newline)
          (front ++ [c]) = trimEndWhile (fun b => b == Byte.carriageReturn || b == Byte.newline)
          front := by
        simp [trimEndWhile, hc]
      rw [htrim] at hmem
      exact h (mem_of_mem_trimEndWhile hmem)
    · rcases List.mem_append.1 (mem_of_mem_trimEndWhile hmem) with hmem | hmem
      · exact h hmem
      · exact hc (List.mem_singleton.1 hmem).symm

end Text

/-! ## Lines behind signs -/

/-- A sign tells the change. -/
theorem Change.eq_of_sign? {c c' : Change} {sign : UInt8} (h : c.sign? = some sign)
    (h' : c'.sign? = some sign) : c = c' := by
  have hsame := h.trans h'.symm
  revert hsame
  cases c <;> cases c' <;> decide

namespace LineDiff

/-- The lines of a stretch. -/
def Stretch.lines (p : Stretch) : List Text := p.text.splitAfter Byte.newline

/-- The stretches on a side, as texts. -/
def textsOn (s : Side) (ps : List Stretch) : List Text :=
  (ps.filter fun p => s.has p.change).map (·.text)

/-- What is assumed of the way in which a difference is found. -/
structure IsLineDiff (d : Differ) : Prop where
  /-- What is kept and what is deleted make up the old text. -/
  old : ∀ old new, (textsOn .old (d old new)).flatten = old
  /-- What is kept and what is inserted make up the new text. -/
  new : ∀ old new, (textsOn .new (d old new)).flatten = new
  /-- Stretches are made of whole lines: on either side, they are cut behind newlines only. -/
  whole : ∀ (s : Side) (old new : Text), Text.CutBehind Byte.newline (textsOn s (d old new))
  /-- Of two equal texts, all is kept. -/
  same : ∀ t, ∀ p ∈ d t t, p.change = .keep

/-- The lines of the stretches with some change. -/
def linesWith (c : Change) (ps : List Stretch) : List Text :=
  ps.flatMap fun p => if p.change = c then p.lines else []

/-- The lines of the stretches on a side. -/
def linesOn (s : Side) (ps : List Stretch) : List Text :=
  ps.flatMap fun p => if s.has p.change then p.lines else []

/-- The lines that are shown of some stretches. -/
def shownLines (ps : List Stretch) : List Text :=
  ps.flatMap fun p =>
    match p.change.sign? with
    | none => []
    | some sign => p.lines.map (sign :: ·.withoutLineEnd)

/-- The lines of what is shown that stand behind a sign, without the sign. -/
def behindSign (sign : UInt8) (shown : Text) : List Text :=
  ((Text.splitOn Byte.newline shown).filter (·.head? == some sign)).map List.tail

theorem flatMap_render (ps : List Stretch) :
    ps.flatMap Stretch.render = (shownLines ps).flatMap (· ++ [Byte.newline]) := by
  rw [shownLines, List.flatMap_assoc]
  congr 1
  funext p
  rw [Stretch.render, Text.filter_cutAfter, Stretch.lines]
  cases p.change.sign? with
  | none => rfl
  | some sign => simp [List.flatMap_map]

/-- What is shown is a sign and a whole line without its end. -/
theorem mem_shownLines {ps : List Stretch} {shown : Text} (h : shown ∈ shownLines ps) :
    ∃ (sign : UInt8) (line : Text), shown = sign :: line.withoutLineEnd ∧
      (sign = Byte.minus ∨ sign = 0x2B) ∧ Byte.newline ∉ line.dropLast := by
  obtain ⟨⟨change, text⟩, -, hshown⟩ := List.mem_flatMap.1 h
  cases change with
  | keep => cases hshown
  | delete =>
    obtain ⟨line, hline, rfl⟩ := List.mem_map.1 hshown
    exact ⟨_, line, rfl, Or.inl rfl, Text.notMem_dropLast_of_mem_splitAfter hline⟩
  | insert =>
    obtain ⟨line, hline, rfl⟩ := List.mem_map.1 hshown
    exact ⟨_, line, rfl, Or.inr rfl, Text.notMem_dropLast_of_mem_splitAfter hline⟩

theorem newline_notMem_shownLines (ps : List Stretch) :
    ∀ shown ∈ shownLines ps, Byte.newline ∉ shown := by
  intro shown hshown
  obtain ⟨sign, line, rfl, hsign, hline⟩ := mem_shownLines hshown
  have hend := Text.newline_notMem_withoutLineEnd hline
  rw [List.mem_cons, not_or]
  rcases hsign with rfl | rfl
  · exact ⟨by decide, hend⟩
  · exact ⟨by decide, hend⟩

theorem linesWith_cons (c : Change) (p : Stretch) (ps : List Stretch) :
    linesWith c (p :: ps) = (if p.change = c then p.lines else []) ++ linesWith c ps := rfl

theorem linesOn_cons (s : Side) (p : Stretch) (ps : List Stretch) :
    linesOn s (p :: ps) = (if s.has p.change then p.lines else []) ++ linesOn s ps := rfl

/-- Of one stretch, the lines behind a sign are all of its lines, or none. -/
theorem tail_filter_shown (p : Stretch) {c : Change} {sign : UInt8}
    (hsign : c.sign? = some sign) :
    ((shownLines [p]).filter (·.head? == some sign)).map List.tail
      = (if p.change = c then p.lines else []).map Text.withoutLineEnd := by
  have hshown : shownLines [p] = match p.change.sign? with
      | none => []
      | some sign => p.lines.map (sign :: ·.withoutLineEnd) := by
    simp [shownLines]
  rw [hshown]
  cases hchange : p.change.sign? with
  | none =>
    have hne : p.change ≠ c := by
      intro hsame
      rw [hsame, hsign] at hchange
      cases hchange
    simp [hne]
  | some sign' =>
    by_cases hsame : p.change = c
    · rw [hsame, hsign] at hchange
      cases hchange
      simp [hsame, List.filter_map, Function.comp_def]
    · have hne : sign' ≠ sign := by
        rintro rfl
        exact hsame (Change.eq_of_sign? hchange hsign)
      simp [hsame, hne]

/-- The lines behind a sign are the lines with its change, without their ends. -/
theorem behindSign_render (ps : List Stretch) {c : Change} {sign : UInt8}
    (hsign : c.sign? = some sign) :
    behindSign sign (ps.flatMap Stretch.render) = (linesWith c ps).map Text.withoutLineEnd := by
  have hsplit := Text.splitOn_lines (newline_notMem_shownLines ps) [] List.not_mem_nil
  rw [List.append_nil, ← flatMap_render] at hsplit
  have hlast : ([[]] : List Text).filter (·.head? == some sign) = [] := rfl
  rw [behindSign, hsplit, List.filter_append, hlast, List.append_nil]
  clear hsplit hlast
  induction ps with
  | nil => rfl
  | cons p ps ih =>
    have hshown : shownLines (p :: ps) = shownLines [p] ++ shownLines ps := by
      simp [shownLines]
    rw [hshown, linesWith_cons, List.filter_append, List.map_append, List.map_append, ih,
      tail_filter_shown p hsign]

/-! ## Counting lines -/

theorem linesWith_sublist (s : Side) (ps : List Stretch) :
    (linesWith (s.of .delete .insert) ps).Sublist (linesOn s ps) := by
  induction ps with
  | nil => exact List.Sublist.refl _
  | cons p ps ih =>
    rw [linesWith_cons, linesOn_cons]
    refine List.Sublist.append ?_ ih
    obtain ⟨change, text⟩ := p
    cases s <;> cases change <;> simp [Side.of, Side.has]

theorem length_linesOn (s : Side) (ps : List Stretch) :
    (linesOn s ps).length
      = (linesWith .keep ps).length + (linesWith (s.of .delete .insert) ps).length := by
  induction ps with
  | nil => rfl
  | cons p ps ih =>
    rw [linesWith_cons, linesWith_cons, linesOn_cons]
    simp only [List.length_append, ih]
    obtain ⟨change, text⟩ := p
    cases s <;> cases change <;> simp [Side.of, Side.has] <;> omega

/-- Without edits on a side, all that is on the side is kept. -/
theorem linesOn_of_linesWith_eq_nil {s : Side} {ps : List Stretch}
    (h : linesWith (s.of .delete .insert) ps = []) : linesOn s ps = linesWith .keep ps := by
  induction ps with
  | nil => rfl
  | cons p ps ih =>
    rw [linesWith_cons, List.append_eq_nil_iff] at h
    rw [linesOn_cons, linesWith_cons, ih h.2]
    congr 1
    obtain ⟨change, text⟩ := p
    cases s <;> cases change <;> simp_all [Side.of, Side.has]

theorem linesOn_eq_flatMap (s : Side) (ps : List Stretch) :
    linesOn s ps = (textsOn s ps).flatMap (Text.splitAfter Byte.newline) := by
  induction ps with
  | nil => rfl
  | cons p ps ih =>
    rw [linesOn_cons, ih, textsOn, textsOn, List.filter_cons]
    split <;> rfl

/-- The lines on a side are the lines of its text. -/
theorem IsLineDiff.linesOn_eq {d : Differ} (h : IsLineDiff d) (s : Side) (old new : Text) :
    linesOn s (d old new) = (s.of old new).splitAfter Byte.newline := by
  have htext : (textsOn s (d old new)).flatten = s.of old new := by
    cases s with
    | old => exact h.old old new
    | new => exact h.new old new
  rw [linesOn_eq_flatMap, ← Text.splitAfter_flatten (h.whole s old new), htext]

/-! ## Printing -/

theorem colored_false (line : Text) : colored false line = line := by
  unfold colored
  split <;> rfl

/-- What is shown is printed as it is. -/
theorem printed_render (ps : List Stretch) :
    printed false (ps.flatMap Stretch.render) = ps.flatMap Stretch.render := by
  rw [flatMap_render]
  have hnewline := newline_notMem_shownLines ps
  have hne : ∀ shown ∈ shownLines ps, shown ≠ [] := by
    intro shown hshown
    obtain ⟨sign, line, rfl, -⟩ := mem_shownLines hshown
    exact List.cons_ne_nil _ _
  generalize shownLines ps = lines at hnewline hne
  rcases List.eq_nil_or_concat lines with rfl | ⟨front, last, rfl⟩
  · rfl
  · rw [List.concat_eq_append] at hnewline hne ⊢
    have hlast : Byte.newline ∉ last := hnewline last (by simp)
    -- The newline behind the last line is cut off, and no other one.
    have htrim : Text.trimEndWhile (· == Byte.newline)
        ((front ++ [last]).flatMap (· ++ [Byte.newline]))
        = front.flatMap (· ++ [Byte.newline]) ++ last := by
      obtain ⟨start, c, rfl⟩ := List.eq_nil_or_concat last |>.resolve_left (hne last (by simp))
      have hc : (c == Byte.newline) = false := by
        rw [beq_eq_false_iff_ne]
        rintro rfl
        exact hlast (by simp)
      have hkept := Text.trimEndWhile_concat (p := (· == Byte.newline)) hc
        (front.flatMap (· ++ [Byte.newline]) ++ start)
      have htrim := Text.trimEndWhile_append hkept [Byte.newline]
      simpa [Text.trimEndWhile] using htrim
    have hsplit : Text.splitOn Byte.newline (front.flatMap (· ++ [Byte.newline]) ++ last)
        = front ++ [last] :=
      Text.splitOn_lines (fun line hline => hnewline line (List.mem_append_left _ hline)) last hlast
    have hkept : (front ++ [last]).filter (!·.isEmpty) = front ++ [last] :=
      List.filter_eq_self.2 fun line hline => by simpa using hne line hline
    rw [printed, htrim]
    simp only [hsplit, hkept, colored_false]

/-! ## The difference by lines -/

theorem textsOn_map_ofHunk (s : Side) (hunks : List (Hunk Text)) :
    textsOn s (hunks.map Stretch.ofHunk)
      = ((hunks.filter fun h => s.has h.change).map (·.lines)).map List.flatten := by
  rw [textsOn, List.filter_map, List.map_map, List.map_map]
  rfl

theorem onSide_eq_flatten (s : Side) (hunks : List (Hunk Text)) :
    onSide s hunks = ((hunks.filter fun h => s.has h.change).map (·.lines)).flatten := by
  induction hunks with
  | nil => rfl
  | cons h hunks ih =>
    rw [onSide_cons, ih, List.filter_cons]
    split <;> rfl

/-- Runs of lines that all but the last end with a newline are cut behind newlines. -/
theorem cutBehind_map_flatten {runs : List (List Text)}
    (h : runs.flatten.Pairwise fun line _ => line.getLast? = some Byte.newline) :
    Text.CutBehind Byte.newline (runs.map List.flatten) := by
  rw [List.pairwise_flatten] at h
  refine List.pairwise_map.2 (h.2.imp fun {run later} hrun => ?_)
  rcases List.eq_nil_or_concat run with rfl | ⟨front, last, rfl⟩
  · exact Or.inl rfl
  · rcases later with _ | ⟨line, later⟩
    · exact Or.inr (Or.inl rfl)
    · have hlast := hrun last (by simp) line List.mem_cons_self
      right; right
      simp [List.getLast?_append, hlast]

theorem diff_self (as : List Text) :
    diff as as = if as.isEmpty then [] else [⟨.keep, as⟩] := by
  show hunksOf (2 * (as.length + as.length) + 3 + 1) as as = _
  rw [hunksOf, if_pos rfl]

theorem flatten_textsOn_byLines (s : Side) (old new : Text) :
    (textsOn s (byLines old new)).flatten = s.of old new := by
  rw [byLines, textsOn_map_ofHunk, ← List.flatten_flatten, ← onSide_eq_flatten, onSide_diff]
  cases s with
  | old => exact Text.flatten_splitAfter _ _
  | new => exact Text.flatten_splitAfter _ _

/-- **The difference by lines is made of whole lines and accounts for both texts.** -/
theorem isLineDiff_byLines : IsLineDiff byLines where
  old := flatten_textsOn_byLines .old
  new := flatten_textsOn_byLines .new
  whole s old new := by
    rw [byLines, textsOn_map_ofHunk]
    refine cutBehind_map_flatten ?_
    rw [← onSide_eq_flatten, onSide_diff]
    cases s with
    | old => exact Text.pairwise_splitAfter _ _
    | new => exact Text.pairwise_splitAfter _ _
  same t p hp := by
    rw [byLines, diff_self] at hp
    split at hp
    · cases hp
    · rw [List.map_singleton, List.mem_singleton] at hp
      rw [hp]
      rfl

end LineDiff

namespace Session

/-! ## What has changed in a session -/

section

variable {d : LineDiff.Differ} (hd : LineDiff.IsLineDiff d) (s : Session)

include hd

/-- Nothing is shown exactly if nothing has changed. -/
theorem diff_eq_nil_iff : s.diff d = [] ↔ s.changed = false := by
  constructor
  · intro hdiff
    have hnone : ∀ {c : Change} {sign : UInt8}, c.sign? = some sign →
        LineDiff.linesWith c (d s.saved s.buffer.text) = [] := by
      intro c sign hsign
      have hlines := LineDiff.behindSign_render (d s.saved s.buffer.text) hsign
      rw [← diff, hdiff] at hlines
      exact List.map_eq_nil_iff.1 hlines.symm
    have hold := hd.linesOn_eq .old s.saved s.buffer.text
    have hnew := hd.linesOn_eq .new s.saved s.buffer.text
    rw [LineDiff.linesOn_of_linesWith_eq_nil (hnone rfl)] at hold hnew
    have hlines : s.saved.splitAfter Byte.newline = s.buffer.text.splitAfter Byte.newline :=
      hold.symm.trans hnew
    have htext : s.saved = s.buffer.text := by
      rw [← Text.flatten_splitAfter Byte.newline s.saved, hlines, Text.flatten_splitAfter]
    simp [changed, htext]
  · intro hchanged
    have htext : s.buffer.text = s.saved := by simpa [changed] using hchanged
    rw [diff, htext, List.flatMap_eq_nil_iff]
    intro p hp
    rw [LineDiff.Stretch.render, hd.same _ p hp]
    rfl

/-- **What is shown of a session accounts for all lines.** However the difference is found, if it is
    made of whole lines and accounts for both texts, and if of equal texts all is kept: nothing is
    shown exactly if nothing has changed. Behind the minus signs stand lines of the text saved and
    behind the plus signs lines of the text as it is, in their order and without their ends, and as
    many more of the one kind as that text has more lines. Printed without colours, what is shown
    stays as it is. -/
theorem diff_exact :
    (s.diff d = [] ↔ s.changed = false) ∧
    (LineDiff.behindSign Byte.minus (s.diff d)).Sublist
      ((s.saved.splitAfter Byte.newline).map Text.withoutLineEnd) ∧
    (LineDiff.behindSign 0x2B (s.diff d)).Sublist
      ((s.buffer.text.splitAfter Byte.newline).map Text.withoutLineEnd) ∧
    ((LineDiff.behindSign Byte.minus (s.diff d)).length : Int)
        - (LineDiff.behindSign 0x2B (s.diff d)).length
      = (s.saved.splitAfter Byte.newline).length - (s.buffer.text.splitAfter Byte.newline).length ∧
    LineDiff.printed false (s.diff d) = s.diff d := by
  have hminus := LineDiff.behindSign_render (d s.saved s.buffer.text) (c := .delete) rfl
  have hplus := LineDiff.behindSign_render (d s.saved s.buffer.text) (c := .insert) rfl
  have hold := hd.linesOn_eq .old s.saved s.buffer.text
  have hnew := hd.linesOn_eq .new s.saved s.buffer.text
  rw [← diff] at hminus hplus
  refine ⟨diff_eq_nil_iff hd s, ?_, ?_, ?_, LineDiff.printed_render _⟩
  · rw [hminus, ← show _ = s.saved.splitAfter Byte.newline from hold]
    exact (LineDiff.linesWith_sublist .old _).map _
  · rw [hplus, ← show _ = s.buffer.text.splitAfter Byte.newline from hnew]
    exact (LineDiff.linesWith_sublist .new _).map _
  · have hcountOld := LineDiff.length_linesOn .old (d s.saved s.buffer.text)
    have hcountNew := LineDiff.length_linesOn .new (d s.saved s.buffer.text)
    rw [hold] at hcountOld
    rw [hnew] at hcountNew
    simp only [Side.of] at hcountOld hcountNew
    rw [hminus, hplus, List.length_map, List.length_map]
    omega

end

/-- A session in which the last line is given an end, and an empty line put behind it. -/
def continued : Session :=
  { path := [], saved := utf8 "a\r\n\r\n- b", settings := Settings.default
    registry := ⟨[]⟩, buffer := Buffer.ofText (utf8 "a\r\n\r\n- b\n\n"), model := {}
    language := [] }

/-- A line that starts with a sign is shown behind another one, and so is an empty line. -/
theorem diff_exact_continued :
    continued.changed = true ∧
    continued.diff LineDiff.byLines = utf8 "-- b\n+- b\n+\n" ∧
    LineDiff.behindSign Byte.minus (continued.diff LineDiff.byLines) = [utf8 "- b"] ∧
    continued.diff LineDiff.byLines ≠ [] ∧
    LineDiff.printed false (continued.diff LineDiff.byLines)
      = continued.diff LineDiff.byLines := by
  obtain ⟨hempty, -, -, -, hprinted⟩ := diff_exact LineDiff.isLineDiff_byLines continued
  have hchanged : continued.changed = true := by decide
  refine ⟨hchanged, by decide, by decide, fun hnone => ?_, hprinted⟩
  rw [hempty.1 hnone] at hchanged
  cases hchanged

end Session

end ModifierToggle
