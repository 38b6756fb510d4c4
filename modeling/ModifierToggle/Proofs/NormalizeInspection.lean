import Mathlib.Data.List.Forall2
import ModifierToggle.Proofs.HeaderInspection
import ModifierToggle.Proofs.ModifierOrder
import ModifierToggle.Proofs.SpanFrame

set_option autoImplicit false

/-! # Inspecting a normalized declaration

Each pass of normalization changes at most one line of the header span, and the line shows the same
afterwards. The lines below it are read as before, because no comment is left open that was not.
So inspection sees the same declaration after each pass and after all of them, provided that each
line is one the passes can work on (`Language.Normalizable`). Where a line is not, normalization can
hide a modifier (`Editor.normalize_hides_final`). -/

namespace ModifierToggle

open Comment (Mode Reads strip stripLine openAfter)

/-! ## Lines one after another -/

namespace Language

variable {lang : Language}

/-- The lines show the same, one by one, where the first of them starts inside a comment when
    `inBlock` holds. -/
inductive ShowSame (lang : Language) : Bool → List Text → List Text → Prop
  | nil {inBlock : Bool} : ShowSame lang inBlock [] []
  | cons {inBlock : Bool} {x y : Text} {xs ys : List Text} : lang.ShowsSame inBlock x y →
      ShowSame lang (stripLine inBlock x).2 xs ys → ShowSame lang inBlock (x :: xs) (y :: ys)

namespace ShowSame

theorem refl (lang : Language) (inBlock : Bool) (xs : List Text) :
    lang.ShowSame inBlock xs xs := by
  induction xs generalizing inBlock with
  | nil => exact .nil
  | cons x xs ih => exact .cons (.refl _ _ _) (ih _)

theorem trans {inBlock : Bool} {xs ys zs : List Text} (h : lang.ShowSame inBlock xs ys)
    (h' : lang.ShowSame inBlock ys zs) : lang.ShowSame inBlock xs zs := by
  induction h generalizing zs with
  | nil => exact h'
  | cons hx _ ih =>
    cases h' with
    | cons hy hys =>
      rw [hx.opened] at hys
      exact .cons (hx.trans hy) (ih hys)

/-- Exchanging one line for one that shows the same. -/
theorem exchange {inBlock : Bool} {above : List Text} {x y : Text}
    (h : lang.ShowsSame (openAfter inBlock above) x y) (below : List Text) :
    lang.ShowSame inBlock (above ++ x :: below) (above ++ y :: below) := by
  induction above generalizing inBlock with
  | nil => exact .cons h (.refl _ _ _)
  | cons x' above ih => exact .cons (.refl _ _ _) (ih h)

end ShowSame

/-- The lines are such that `P`, each with whether it starts inside a comment. -/
def EachLine (P : Bool → Text → Prop) (inBlock : Bool) : List Text → Prop
  | [] => True
  | x :: xs => P inBlock x ∧ EachLine P (stripLine inBlock x).2 xs

instance EachLine.decidable {P : Bool → Text → Prop} [∀ inBlock x, Decidable (P inBlock x)] :
    ∀ inBlock xs, Decidable (EachLine P inBlock xs)
  | _, [] => inferInstanceAs (Decidable True)
  | inBlock, x :: xs =>
    have : Decidable (EachLine P (stripLine inBlock x).2 xs) := EachLine.decidable _ xs
    inferInstanceAs (Decidable (P inBlock x ∧ EachLine P (stripLine inBlock x).2 xs))

theorem eachLine_append {P : Bool → Text → Prop} {inBlock : Bool} {above below : List Text} :
    EachLine P inBlock (above ++ below) ↔
      EachLine P inBlock above ∧ EachLine P (openAfter inBlock above) below := by
  induction above generalizing inBlock with
  | nil => simp [EachLine, openAfter]
  | cons x above ih => simp [EachLine, openAfter, ih, and_assoc]

theorem EachLine.mono {P Q : Bool → Text → Prop}
    (h : ∀ {inBlock : Bool} {x : Text}, P inBlock x → Q inBlock x) {inBlock : Bool} {xs : List Text}
    (hxs : EachLine P inBlock xs) : EachLine Q inBlock xs := by
  induction xs generalizing inBlock with
  | nil => trivial
  | cons x xs ih => exact ⟨h hxs.1, ih hxs.2⟩

theorem ShowSame.eachLine {P : Bool → Text → Prop}
    (hP : ∀ {inBlock : Bool} {x y : Text}, lang.ShowsSame inBlock x y → P inBlock x → P inBlock y)
    {inBlock : Bool} {xs ys : List Text} (h : lang.ShowSame inBlock xs ys)
    (hxs : EachLine P inBlock xs) : EachLine P inBlock ys := by
  induction h with
  | nil => trivial
  | cons hx _ ih =>
    refine ⟨hP hx hxs.1, ?_⟩
    rw [hx.opened]
    exact ih hxs.2

end Language

/-! ## A line above a carriage return -/

/-- The line `y` of a text is read as `z`: a carriage return that ends it, where the line `x` before
    it had none, becomes part of the line end. -/
def Text.ReadAs (x y z : Text) : Prop :=
  z = y ∨ y = z ++ [Byte.carriageReturn] ∧ x.getLast? ≠ some Byte.carriageReturn

namespace Comment

theorem not_opens_snoc {b c : UInt8} {x : Text} (hb : b ≠ Byte.slash) (hb' : b ≠ Byte.star)
    (h : ¬ Opens c x) : ¬ Opens c (x ++ [b]) := by
  rintro ⟨rfl, hhead⟩
  cases x with
  | nil => exact hhead.elim (fun h => hb (Option.some.inj h)) fun h => hb' (Option.some.inj h)
  | cons d x => exact h ⟨rfl, by simpa using hhead⟩

theorem not_closes_snoc {b c : UInt8} {x : Text} (hb : b ≠ Byte.slash) (h : ¬ Closes c x) :
    ¬ Closes c (x ++ [b]) := by
  rintro ⟨rfl, hhead⟩
  cases x with
  | nil => exact hb (Option.some.inj hhead)
  | cons d x => exact h ⟨rfl, by simpa using hhead⟩

/-- A byte at the end of a line that is no part of a comment mark is code or inside a comment. -/
theorem strip_snoc (m : Mode) (x : Text) {b : UInt8} (hb : b ≠ Byte.slash) (hb' : b ≠ Byte.star) :
    strip m (x ++ [b]) = strip m x ∨
      strip m (x ++ [b]) = ((strip m x).1 ++ [b], (strip m x).2) := by
  fun_induction strip m x with
  | case1 =>
    right
    rw [List.nil_append, strip_byte fun hopens => hb hopens.1]
    rfl
  | case2 => exact Or.inl rfl
  | case3 rest ih => exact ih
  | case4 c rest hslash hstar code opened hrest ih =>
    have hopens : ¬ Opens c rest := by
      rintro ⟨rfl, hhead | hhead⟩
      · obtain ⟨tail, rfl⟩ := List.head?_eq_some_iff.1 hhead
        exact hslash tail rfl rfl
      · obtain ⟨tail, rfl⟩ := List.head?_eq_some_iff.1 hhead
        exact hstar tail rfl rfl
    rw [List.cons_append, strip_byte (not_opens_snoc hb hb' hopens)]
    rw [hrest] at ih
    rcases ih with ih | ih
    · exact Or.inl (by rw [ih])
    · exact Or.inr (by rw [ih]; rfl)
  | case5 width =>
    left
    rw [List.nil_append, strip_inside (by simp [Closes])]
    rfl
  | case6 width rest code opened hrest ih =>
    rw [hrest] at ih
    rw [List.cons_append, List.cons_append, strip]
    rcases ih with ih | ih
    · exact Or.inl (by rw [ih])
    · exact Or.inr (by rw [ih, List.append_assoc])
  | case7 width c rest hcloses ih =>
    have hcloses' : ¬ Closes c rest := by
      rintro ⟨rfl, hhead⟩
      obtain ⟨tail, rfl⟩ := List.head?_eq_some_iff.1 hhead
      exact hcloses tail rfl rfl
    rw [List.cons_append, strip_inside (not_closes_snoc hb hcloses')]
    exact ih

end Comment

/-- White space at the end of code without a keyword does not show. -/
theorem Language.SeesSame.of_snoc {lang : Language} (hlang : lang.Customary) {code : Text}
    {b : UInt8} (hb : Byte.isSeparator b = true) (hnone : lang.findStart? (code ++ [b]) = none) :
    lang.SeesSame (code ++ [b]) code := by
  have hcloses : Text.ClosesWord [b] := by simpa [Text.ClosesWord] using hb
  have hstanding : ∀ atEnd : Bool, (code ++ [b]).standing atEnd = code.standing := by
    intro atEnd
    rw [Text.standing_append_closed code hcloses (by simp), Text.standing_separator hb]
    simp [Text.standing, Text.standingFrom]
  have hnoStart : ∀ w ∈ code.standing, w ∉ lang.startWords := by
    rcases lang.start_cases (code ++ [b]) with hnoStart | ⟨front, keyword, tail, hfirst⟩
    · rwa [hstanding] at hnoStart
    · obtain ⟨at_, hat, -⟩ := Language.findStart?_first hlang hfirst
      rw [hnone] at hat
      cases hat
  refine .of_noStart hlang (by rwa [hstanding]) ?_ (by rw [hstanding]) fun hslash => ?_
  · exact fun w hw => hnoStart w (Text.mem_standing_of_closed hw)
  · rw [Text.hasLooseSlash_append_closed code hcloses, Bool.or_eq_false_iff] at hslash
    exact hslash.1

/-- A line that shows the same still does without a carriage return at its end. -/
theorem Language.ShowsSame.readAs {lang : Language} (hlang : lang.Customary) {inBlock : Bool}
    {x y z : Text} (h : lang.ShowsSame inBlock x y) (hz : x.ReadAs y z) :
    lang.ShowsSame inBlock x z := by
  rcases hz with rfl | ⟨rfl, hx⟩
  · exact h
  · obtain ⟨m, -, hstripLine⟩ := Comment.exists_mode inBlock
    -- the line is no header, because a header line keeps its end
    have hnone : lang.findStart? (stripLine inBlock x).1 = none := by
      cases hfind : lang.findStart? (stripLine inBlock x).1 with
      | none => rfl
      | some at_ =>
        have hlast := h.last (Option.isSome_of_eq_some hfind)
        exact absurd (hlast ▸ by simp) hx
    have hnone' : lang.findStart? (stripLine inBlock (z ++ [Byte.carriageReturn])).1 = none := by
      have hopens := h.sees.opens
      rw [hnone] at hopens
      simpa using hopens
    refine ⟨h.sees.trans ?_, ?_, fun hopens => by rw [hnone] at hopens; cases hopens⟩
    · rw [hstripLine] at hnone'
      rw [hstripLine, hstripLine]
      rcases Comment.strip_snoc m z (b := Byte.carriageReturn) (by decide) (by decide) with
        hstrip | hstrip
      · rw [hstrip]
        exact .refl _ _
      · rw [hstrip] at hnone' ⊢
        exact .of_snoc hlang (by decide) hnone'
    · rw [← h.opened, hstripLine, hstripLine]
      rcases Comment.strip_snoc m z (b := Byte.carriageReturn) (by decide) (by decide) with
        hstrip | hstrip
      · rw [hstrip]
      · rw [hstrip]

/-! ## Editing a line of a span -/

/-- A part whose line was `x` has the line `y` now, or what is left of it at a carriage return. -/
theorem Text.readAs_contentOf {x y ending : Text} {below : List Text} (hending : IsEnding ending)
    (hx : contentOf (x ++ ending) below = x) : x.ReadAs y (contentOf (y ++ ending) below) := by
  by_cases hlast : y.getLast? = some Byte.carriageReturn → x.getLast? = some Byte.carriageReturn
  · exact Or.inl (hending.contentOf_append hx hlast)
  · obtain ⟨hy, hxLast⟩ := Classical.not_imp.1 hlast
    obtain ⟨y', rfl⟩ := List.getLast?_eq_some_iff.1 hy
    unfold contentOf at hx ⊢
    split at hx
    · next hbelow =>
      obtain rfl : ending = [] := List.append_right_eq_self.1 hx
      exact Or.inl (by rw [if_pos hbelow, List.append_nil])
    · next hbelow =>
      rw [if_neg hbelow]
      rcases hending with rfl | rfl
      · right
        rw [List.append_nil, withoutReturn_append_return]
        exact ⟨rfl, hxLast⟩
      · exact Or.inl (withoutReturn_append_return _)

/-- Giving a line a new text changes this line and no other. -/
theorem Step.setLine_lines (scope : Option ToggleScope) {w : Work} (hw : w.writesLeft = none)
    {l : CodeLine} (hl : w.buffer.text.lines[l.number]? = some l.text) {y : Text}
    (hy : Byte.newline ∉ y) :
    (setLine scope l y w).error = none ∧ (setLine scope l y w).work.writesLeft = none ∧
      ∃ z, l.text.ReadAs y z ∧
        (setLine scope l y w).work.buffer.text.lines = w.buffer.text.lines.set l.number z := by
  obtain ⟨number, x, code⟩ := l
  obtain ⟨above, ending, below, hsplit, rfl, hending, hx⟩ := Text.exists_part hl
  have hfree : ∀ p ∈ above ++ (x ++ ending) :: below, Byte.newline ∉ p := fun p hp =>
    Text.newline_notMem_of_mem_splitOn (hsplit ▸ hp)
  have habove : ∀ p ∈ above, Byte.newline ∉ p := fun p hp => hfree p (List.mem_append_left _ hp)
  have hbelow : ∀ p ∈ below, Byte.newline ∉ p := fun p hp =>
    hfree p (List.mem_append_right _ (List.mem_cons_of_mem _ hp))
  have hfits := LineSite.ofParts_fits habove hbelow (hfree _ (by simp)) hx
  have htext : w.buffer.text = (LineSite.ofParts above ending below).fill x := by
    rw [LineSite.ofParts_fill, ← hsplit, List.intercalate_splitOn]
  have hlength : (LineSite.ofParts above ending below).above.length = above.length := by
    simp [LineSite.ofParts]
  have hset := setLine_rewrites scope hfits code y w hw htext
  rw [hlength] at hset
  obtain ⟨herror, hwrites, htext'⟩ := hset
  refine ⟨herror, hwrites, _, Text.readAs_contentOf hending hx, ?_⟩
  rw [htext', htext, Text.lines_eq, Text.lines_eq,
    LineSite.splitOn_fill habove hbelow (hending.newline_notMem hy),
    LineSite.splitOn_fill habove hbelow (hfree _ (by simp)), Text.contents_append,
    Text.contents_append]
  simp

/-- The lines of a span that exist. -/
def Buffer.spanLines (b : Buffer) (span : Span) : List Text :=
  (b.text.lines.take (span.last + 1).toNat).drop span.first.toNat

/-- Giving a line of a span a new text changes the span there. -/
theorem Step.setLine_spanLines (scope : Option ToggleScope) {w : Work} (hw : w.writesLeft = none)
    {span : Span} {above below : List CodeLine} {l : CodeLine}
    (hlines : w.buffer.codeLines span = above ++ l :: below) {y : Text} (hy : Byte.newline ∉ y) :
    (setLine scope l y w).error = none ∧ (setLine scope l y w).work.writesLeft = none ∧
      ∃ rest z, l.text.ReadAs y z ∧
        w.buffer.spanLines span = above.map (·.text) ++ l.text :: rest ∧
        (setLine scope l y w).work.buffer.spanLines span = above.map (·.text) ++ z :: rest := by
  obtain ⟨hnumber, hline, -, -⟩ := Buffer.codeLines_split hlines
  obtain ⟨rest, htexts, -⟩ := CodeLine.ofLines_split hlines
  obtain ⟨herror, hwrites, z, hz, hset⟩ := setLine_lines scope hw hline hy
  refine ⟨herror, hwrites, rest, z, hz, htexts, ?_⟩
  have hindex : l.number - span.first.toNat = (above.map (·.text)).length := by
    rw [hnumber, Nat.add_sub_cancel_left, List.length_map]
  rw [Buffer.spanLines, hset, List.take_set, List.drop_set, if_neg (by omega), htexts, hindex]
  simp

/-- What a step does to the lines of a span if it exchanges at most one of them, as `r` says. -/
inductive LineEdit.Exchanges (r : LineEdit) (xs : List Text) : List Text → Prop
  | same : Exchanges r xs xs
  | line {above below : List Text} {n : Nat} {x y z : Text} : xs = above ++ x :: below →
      r ⟨n, x, (stripLine (openAfter false above) x).1⟩ = some y → x.ReadAs y z →
      Exchanges r xs (above ++ z :: below)

/-- The step is taken without an error and leaves the buffer alone. -/
def Step.IsIdle (f : Step) : Prop :=
  ∀ w : Work, (f w).error = none ∧ (f w).work.writesLeft = w.writesLeft ∧
    (f w).work.buffer = w.buffer

theorem Step.skip_isIdle : skip.IsIdle := fun _ => ⟨rfl, rfl, rfl⟩

theorem Step.report_isIdle (scope : Option ToggleScope) (e : Event) : (report scope e).IsIdle :=
  fun _ => ⟨rfl, rfl, rfl⟩

/-- **A step exchanges at most one line of its span,** as its line edit says. -/
theorem Step.editLine_exchanges (scope : Option ToggleScope) (span : Span) {r : LineEdit}
    (hr : r.OneLine) {otherwise : Step} (ho : otherwise.IsIdle) {w : Work}
    (hw : w.writesLeft = none) :
    let o := editLine scope span r otherwise w
    o.error = none ∧ o.work.writesLeft = none ∧
      r.Exchanges (w.buffer.spanLines span) (o.work.buffer.spanLines span) := by
  intro o
  cases hfirst : r.first? (w.buffer.codeLines span) with
  | none =>
    have ho' : o = otherwise w := by simp only [o, editLine, hfirst]
    obtain ⟨herror, hwrites, hbuffer⟩ := ho w
    rw [ho', hbuffer]
    exact ⟨herror, hwrites.trans hw, .same⟩
  | some taken =>
    obtain ⟨l, y⟩ := taken
    have ho' : o = setLine scope l y w := by simp only [o, editLine, hfirst]
    obtain ⟨above, below, hlines, hy⟩ := LineEdit.exists_split_of_first? hfirst
    have hmem : l ∈ w.buffer.codeLines span := by simp [hlines]
    obtain ⟨-, -, hl⟩ := CodeLine.ofLines_split hlines
    obtain ⟨herror, hwrites, rest, z, hz, htexts, htexts'⟩ :=
      setLine_spanLines scope hw hlines (hr l y (Buffer.newline_notMem_text hmem) hy)
    rw [ho', htexts, htexts']
    rw [hl] at hy
    exact ⟨herror, hwrites, .line rfl hy hz⟩

namespace LineEdit.Exchanges

open ModifierToggle.Language (EachLine ShowsSame ShowSame)

variable {lang : Language} (hlang : lang.Customary) {r : LineEdit} {xs ys : List Text}
  (h : r.Exchanges xs ys) {P Q : Bool → Text → Prop} (hxs : EachLine P false xs)

include h hxs

include hlang in
theorem showSame (hshows : ∀ {inBlock : Bool} {n : Nat} {x y : Text}, P inBlock x →
      r ⟨n, x, (stripLine inBlock x).1⟩ = some y → lang.ShowsSame inBlock x y) :
    lang.ShowSame false xs ys := by
  cases h with
  | same => exact .refl _ _ _
  | line hsplit hy hz =>
    subst hsplit
    have hx := (Language.eachLine_append.1 hxs).2.1
    exact .exchange ((hshows hx hy).readAs hlang hz) _

theorem eachLine (hkept : ∀ {inBlock : Bool} {x : Text}, P inBlock x → Q inBlock x)
    (hnew : ∀ {inBlock : Bool} {n : Nat} {x y z : Text}, P inBlock x →
      r ⟨n, x, (stripLine inBlock x).1⟩ = some y → x.ReadAs y z →
      Q inBlock z ∧ (stripLine inBlock z).2 = (stripLine inBlock x).2) :
    EachLine Q false ys := by
  cases h with
  | same => exact hxs.mono hkept
  | line hsplit hy hz =>
    subst hsplit
    obtain ⟨habove, hx, hbelow⟩ := Language.eachLine_append.1 hxs
    obtain ⟨hz', hopened⟩ := hnew hx hy hz
    refine Language.eachLine_append.2 ⟨habove.mono hkept, hz', ?_⟩
    rw [hopened]
    exact hbelow.mono hkept

end LineEdit.Exchanges

/-! ## The passes -/

theorem Step.andThen_assoc (f g h : Step) : (f.andThen g).andThen h = f.andThen (g.andThen h) := by
  funext w
  unfold Step.andThen
  dsimp only
  split
  · rfl
  · rfl

/-- Taken from `w` on, the step does not fail, and the lines of the span show the same. -/
structure Step.Shows (f : Step) (lang : Language) (span : Span) (w : Work) : Prop where
  error : (f w).error = none
  writesLeft : (f w).work.writesLeft = none
  showSame : lang.ShowSame false (w.buffer.spanLines span) ((f w).work.buffer.spanLines span)

theorem Step.Shows.skip {lang : Language} {span : Span} {w : Work} (hw : w.writesLeft = none) :
    Step.skip.Shows lang span w := ⟨rfl, hw, .refl _ _ _⟩

theorem Step.Shows.andThen {f g : Step} {lang : Language} {span : Span} {w : Work}
    (hf : f.Shows lang span w) (hg : g.Shows lang span (f w).work) :
    (f.andThen g).Shows lang span w := by
  have hstep : f.andThen g w = g (f w).work := by
    simp only [Step.andThen, hf.error, Option.isSome_none, Bool.false_eq_true, if_false]
  refine ⟨?_, ?_, ?_⟩ <;> rw [hstep]
  · exact hg.error
  · exact hg.writesLeft
  · exact hf.showSame.trans hg.showSame

/-- A line that normalization can work on: tokens can be put into place on it and, if visibilities
    go first, its modifiers can be put in order, with the token for "final" set apart on the header
    line. -/
structure Language.Normalizable (lang : Language) (inBlock : Bool) (x : Text) : Prop
    extends lang.Placeable inBlock x where
  orderable : lang.startWithModifiers = true → lang.Orderable inBlock x
  finalApart : lang.startWithModifiers = true →
    (lang.findStart? (stripLine inBlock x).1).isSome = true →
    ∀ tok ∈ lang.tokens, tok.modifier = .final →
      ∀ at_, tok.find? (lang.modifierPart (stripLine inBlock x).1) = some at_ →
        x.IsSetApart at_.start at_.stop

instance (lang : Language) (inBlock : Bool) (x : Text) : Decidable (lang.Normalizable inBlock x) :=
  decidable_of_iff (lang.Placeable inBlock x ∧ _ ∧ _) ⟨fun h => ⟨h.1, h.2.1, h.2.2⟩,
    fun h => ⟨h.toPlaceable, h.orderable, h.finalApart⟩⟩

namespace Editor

open ModifierToggle.Language (EachLine ShowsSame ShowSame Placeable Orderable Normalizable)

section

variable {ed : Editor} (hlang : ed.lang.Customary) (span : Span) {w : Work}
  (hw : w.writesLeft = none)

include hlang hw

theorem fixPlacement_exchanges (m : Modifier) :
    let o := ed.fixPlacement m span w
    o.error = none ∧ o.work.writesLeft = none ∧
      (o.work.buffer.spanLines span = w.buffer.spanLines span ∨
        ∃ tok ∈ ed.lang.tokens, tok.modifier = m ∧ ∃ r, LineEdit.place? ed.lang tok = some r ∧
          r.Exchanges (w.buffer.spanLines span) (o.work.buffer.spanLines span)) := by
  intro o
  cases htok : ed.lang.token? m with
  | none =>
    have ho : o = Step.skip w := by simp only [o, fixPlacement, htok]
    rw [ho]
    exact ⟨rfl, hw, Or.inl rfl⟩
  | some tok =>
    have hmem := List.mem_of_find?_eq_some htok
    have hmodifier : tok.modifier = m := by simpa using List.find?_some htok
    cases hr : LineEdit.place? ed.lang tok with
    | none =>
      have ho : o = Step.skip w := by simp only [o, fixPlacement, htok, hr]
      rw [ho]
      exact ⟨rfl, hw, Or.inl rfl⟩
    | some r =>
      have ho : o = Step.editLine ed.scope span r
          (Step.report ed.scope (.nothingToMove tok.keyword)) w := by
        simp only [o, fixPlacement, htok, hr]
      have hkeyword : Byte.newline ∉ tok.keyword := fun hnewline =>
        absurd ((Language.tokenWord hlang hmem).2 _ hnewline) (by decide)
      obtain ⟨herror, hwrites, hexchanges⟩ := Step.editLine_exchanges ed.scope span
        (LineEdit.place?_oneLine ed.lang hkeyword hr) (Step.report_isIdle ed.scope _) hw
      rw [ho]
      exact ⟨herror, hwrites, Or.inr ⟨tok, hmem, hmodifier, r, hr, hexchanges⟩⟩

/-- Putting a token into its place shows the same. -/
theorem fixPlacement_shows (m : Modifier)
    (hlines : EachLine ed.lang.Placeable false (w.buffer.spanLines span)) :
    (ed.fixPlacement m span).Shows ed.lang span w := by
  obtain ⟨herror, hwrites, hsame | ⟨tok, htok, -, r, hr, hexchanges⟩⟩ :=
    fixPlacement_exchanges hlang span hw m
  · exact ⟨herror, hwrites, hsame ▸ .refl _ _ _⟩
  · exact ⟨herror, hwrites, hexchanges.showSame hlang hlines fun hx hy =>
      LineEdit.place?_showsSame hlang htok hx hr hy⟩

/-- Putting the token for "final" into its place leaves lines that can be put in order. -/
theorem fixPlacement_final_orderable (hstart : ed.lang.startWithModifiers = true)
    (hlines : EachLine ed.lang.Normalizable false (w.buffer.spanLines span)) :
    EachLine ed.lang.Orderable false
      ((ed.fixPlacement .final span w).work.buffer.spanLines span) := by
  obtain ⟨-, -, hsame | ⟨tok, htok, hfinal, r, hr, hexchanges⟩⟩ :=
    fixPlacement_exchanges hlang span hw .final
  · rw [hsame]
    exact hlines.mono fun hx => hx.orderable hstart
  · refine hexchanges.eachLine hlines (fun hx => hx.orderable hstart) ?_
    intro inBlock n x y z hx hy hz
    have hshows := LineEdit.place?_showsSame hlang htok hx.toPlaceable hr hy
    have hshows' := hshows.readAs hlang hz
    refine ⟨?_, hshows'.opened⟩
    cases hopens : (ed.lang.findStart? (stripLine inBlock x).1).isSome with
    | false =>
      intro at_ hat
      rw [← hshows'.sees.opens, hat] at hopens
      cases hopens
    | true =>
      have hline : z = y := by
        rcases hz with hz | ⟨rfl, hlast⟩
        · exact hz
        · exact absurd ((hshows.last hopens).symm.trans (by simp)) hlast
      rw [hline]
      exact LineEdit.place?_orderable hlang htok (hlang.final_placement tok htok hfinal)
        hx.toPlaceable (hx.orderable hstart) (hx.finalApart hstart hopens tok htok hfinal) hr hy

/-- Putting modifiers in order shows the same. -/
theorem fixOrder_shows (hlines : EachLine ed.lang.Orderable false (w.buffer.spanLines span)) :
    (ed.fixOrder span).Shows ed.lang span w := by
  obtain ⟨herror, hwrites, hexchanges⟩ := Step.editLine_exchanges ed.scope span
    (LineEdit.orderModifiers_oneLine ed.lang) Step.skip_isIdle hw
  exact ⟨herror, hwrites, hexchanges.showSame hlang hlines fun hx hy =>
    LineEdit.orderModifiers_showsSame hlang hx hy⟩

end

/-- **Normalizing shows the same,** on lines that it can work on. -/
theorem normalize_shows {ed : Editor} (hlang : ed.lang.Customary) (span : Span) {w : Work}
    (hw : w.writesLeft = none)
    (hlines : EachLine ed.lang.Normalizable false (w.buffer.spanLines span)) :
    (ed.normalize span).Shows ed.lang span w := by
  -- tokens can still be put into place after each pass
  have hplaceable : ∀ {f : Step}, f.Shows ed.lang span w →
      EachLine ed.lang.Placeable false ((f w).work.buffer.spanLines span) := fun hf =>
    hf.showSame.eachLine (fun hx => hx.placeable hlang) (hlines.mono fun hx => hx.toPlaceable)
  have hfinal : (ed.fixPlacement .final span).Shows ed.lang span w :=
    fixPlacement_shows hlang span hw .final (hlines.mono fun hx => hx.toPlaceable)
  have horder : (if ed.lang.startWithModifiers then ed.fixOrder span else Step.skip).Shows ed.lang
      span (ed.fixPlacement .final span w).work := by
    split
    · next hstart =>
      exact fixOrder_shows hlang span hfinal.writesLeft
        (fixPlacement_final_orderable hlang span hw hstart hlines)
    · exact .skip hfinal.writesLeft
  have hinlined := fixPlacement_shows hlang span (hfinal.andThen horder).writesLeft .inlined
    (hplaceable (hfinal.andThen horder))
  have hnoCompletion := fixPlacement_shows hlang span
    ((hfinal.andThen horder).andThen hinlined).writesLeft .noCompletion
    (hplaceable ((hfinal.andThen horder).andThen hinlined))
  have hall := ((hfinal.andThen horder).andThen hinlined).andThen hnoCompletion
  rwa [Step.andThen_assoc, Step.andThen_assoc] at hall

end Editor

/-! ## Inspecting lines that show the same -/

/-- A code line shows the same as another with its number. -/
def CodeLine.ShowsSame (lang : Language) (l l' : CodeLine) : Prop :=
  l'.number = l.number ∧ lang.SeesSame l.code l'.code

theorem Language.ShowSame.codeLines {lang : Language} {inBlock : Bool} {xs ys : List Text}
    (h : lang.ShowSame inBlock xs ys) (first : Nat) :
    List.Forall₂ (CodeLine.ShowsSame lang) (CodeLine.ofLines first inBlock xs)
      (CodeLine.ofLines first inBlock ys) := by
  induction h generalizing first with
  | nil => exact .nil
  | cons hx _ ih =>
    rw [CodeLine.ofLines_cons, CodeLine.ofLines_cons, hx.opened]
    exact .cons ⟨rfl, hx.sees⟩ (ih _)

namespace Buffer

section

variable {b : Buffer} {lang : Language} {span : Span} {header : Header}

theorem findHeader?_le (h : b.findHeader? lang span = some header) :
    (header.line : Int) ≤ span.last := by
  obtain ⟨above, l, below, hlines, hl, -⟩ := List.findSome?_eq_some_iff.1 h
  obtain ⟨at_, -, rfl⟩ := Option.map_eq_some_iff.1 hl
  exact (codeLines_split hlines).2.2.1

/-- A header that is found in a span is found in its lines up to there. -/
theorem findHeader?_upTo (h : b.findHeader? lang span = some header) :
    b.findHeader? lang ⟨span.first, header.line⟩ = some header := by
  obtain ⟨above, l, at_, hlines, habove, hat, rfl⟩ := findHeader?_split h
  refine List.findSome?_eq_some_iff.2 ⟨above, l, [], hlines, by rw [hat]; rfl, fun l' hl' => ?_⟩
  rw [habove l' hl']
  rfl

/-- A header that is found in a span is found in a longer one. -/
theorem findHeader?_mono {last : Int} (hlast : last ≤ span.last)
    (h : b.findHeader? lang ⟨span.first, last⟩ = some header) :
    b.findHeader? lang span = some header := by
  rw [findHeader?, codeLines_take hlast] at h
  rw [findHeader?, ← List.take_append_drop ((last + 1).toNat - span.first.toNat)
    (b.codeLines span), List.findSome?_append, h]
  rfl

theorem hasToken_eq {target : Member} (h : b.findHeader? lang target.span = some header)
    (tok : Token) :
    b.hasToken target.lineFrom header tok
      = (b.codeLines ⟨target.lineFrom, header.line⟩).any fun l =>
          (tok.find? (l.searchable lang)).isSome := by
  have htexts : b.modifierTexts target.lineFrom header = _ := modifierTexts_eq h
  rw [hasToken, htexts, List.any_map]
  rfl

/-- The visibility of a declaration is the first one among the words before its keyword. -/
theorem visibilityOf_eq (hlang : lang.PlainVisibilities) {target : Member} {above : List CodeLine}
    {l : CodeLine} {at_ : Keyword.Occurrence}
    (hlines : b.codeLines ⟨target.lineFrom, l.number⟩ = above ++ [l])
    (hat : l.start? lang = some at_) (kind : Kind) :
    b.visibilityOf lang kind target ⟨l.number, at_.start, at_.next⟩
      = if target.visibility.isEmpty then
          ((lang.modifierWords l.code).find? lang.isVisibility).getD (lang.implicitVisibility kind)
        else target.visibility := by
  have hcode : b.code target.lineFrom l.number = l.code := code_eq hlines
  have hpart : l.code.take at_.start = lang.modifierPart l.code := by
    rw [CodeLine.start?] at hat
    rw [Language.modifierPart, hat]
  have hslice := hlang.plain.find?_slice hlang.atEnd (lang.modifierPart l.code)
  have hwords : (fun w => decide (w ∈ lang.visibility.words)) = lang.isVisibility := by
    funext w
    rw [Language.isVisibility, hlang.words_eq, List.contains_eq_mem]
  rw [hwords] at hslice
  rw [visibilityOf, hcode, hpart]
  split
  · dsimp only [Language.findVisibility?]
    rw [Language.modifierWords, ← hslice]
    cases lang.visibility.find? (lang.modifierPart l.code) with
    | none => rfl
    | some found => rfl
  · rfl

end

section

variable {b b' : Buffer} {lang : Language} {span : Span} {header : Header}

/-- The code lines of a span show the same if its lines do. -/
theorem codeLines_showSame
    (h : lang.ShowSame false (b.spanLines span) (b'.spanLines span)) :
    List.Forall₂ (CodeLine.ShowsSame lang) (b.codeLines span) (b'.codeLines span) := by
  rw [codeLines_eq, codeLines_eq]
  exact h.codeLines _

/-- The header stays on its line. -/
theorem findHeader?_showSame (hheader : b.findHeader? lang span = some header)
    (h : lang.ShowSame false (b.spanLines ⟨span.first, header.line⟩)
      (b'.spanLines ⟨span.first, header.line⟩)) :
    ∃ header', b'.findHeader? lang span = some header' ∧ header'.line = header.line := by
  suffices hupTo : ∃ header', b'.findHeader? lang ⟨span.first, header.line⟩ = some header' ∧
      header'.line = header.line by
    obtain ⟨header', hheader', hline⟩ := hupTo
    exact ⟨header', findHeader?_mono (findHeader?_le hheader) hheader', hline⟩
  have hupTo := findHeader?_upTo hheader
  have hlines := codeLines_showSame h
  unfold findHeader? at hupTo ⊢
  generalize b.codeLines _ = ls, b'.codeLines _ = ls' at hlines hupTo ⊢
  induction hlines with
  | nil => cases hupTo
  | @cons l l' above above' hl _ ih =>
    have hopens : (l'.start? lang).isSome = (l.start? lang).isSome := hl.2.opens
    rw [List.findSome?_cons] at hupTo ⊢
    cases hstart : l.start? lang with
    | none =>
      rw [hstart] at hupTo hopens
      rw [Option.isNone_iff_eq_none.1 (Option.isSome_eq_false_iff.1 hopens)]
      exact ih hupTo
    | some at_ =>
      rw [hstart] at hupTo hopens
      obtain ⟨at_', hat'⟩ := Option.isSome_iff_exists.1 hopens
      obtain rfl := Option.some.inj hupTo
      exact ⟨⟨l'.number, at_'.start, at_'.next⟩, by rw [hat']; rfl, hl.1⟩

section

variable (hlang : lang.Customary) {target : Member} {header' : Header}
  (h : lang.ShowSame false (b.spanLines ⟨target.lineFrom, header.line⟩)
    (b'.spanLines ⟨target.lineFrom, header.line⟩))
  (hheader : b.findHeader? lang target.span = some header)
  (hheader' : b'.findHeader? lang target.span = some header') (hline : header'.line = header.line)

include hlang h hheader hheader' hline

theorem hasToken_showSame {tok : Token} (htok : tok ∈ lang.tokens) :
    b'.hasToken target.lineFrom header' tok = b.hasToken target.lineFrom header tok := by
  have hlines := codeLines_showSame h
  rw [hasToken_eq hheader, hasToken_eq hheader', hline]
  generalize b.codeLines _ = ls, b'.codeLines _ = ls' at hlines ⊢
  induction hlines with
  | nil => rfl
  | @cons l l' _ _ hl _ ih =>
    have hfind : (tok.find? (l'.searchable lang)).isSome
        = (tok.find? (l.searchable lang)).isSome := by
      rw [Bool.eq_iff_iff]
      exact (Language.find?_modifierPart_isSome hlang htok _).trans
        (hl.2.words.mem_iff.trans (Language.find?_modifierPart_isSome hlang htok _).symm)
    rw [List.any_cons, List.any_cons, ih, hfind]

theorem hasModifier_showSame (m : Modifier) :
    b'.hasModifier lang target header' m = b.hasModifier lang target header m := by
  have htoken : (lang.token? m).any (b'.hasToken target.lineFrom header')
      = (lang.token? m).any (b.hasToken target.lineFrom header) := by
    cases htok : lang.token? m with
    | none => rfl
    | some tok =>
      exact hasToken_showSame hlang h hheader hheader' hline (List.mem_of_find?_eq_some htok)
  rw [hasModifier, hasModifier, htoken]

theorem visibilityOf_showSame (kind : Kind) :
    b'.visibilityOf lang kind target header' = b.visibilityOf lang kind target header := by
  have hlines := codeLines_showSame h
  obtain ⟨above, l, at_, hsplit, -, hat, rfl⟩ := findHeader?_split hheader
  obtain ⟨above', l', at_', hsplit', -, hat', rfl⟩ := findHeader?_split hheader'
  dsimp only [Member.span] at hline hlines hsplit hsplit'
  -- the last line of each span is its header line
  rw [hsplit, ← hline, hsplit', ← List.forall₂_reverse_iff, List.reverse_concat,
    List.reverse_concat] at hlines
  have hlast := (List.forall₂_cons.1 hlines).1.2
  rw [visibilityOf_eq hlang.plainVisibilities hsplit hat,
    visibilityOf_eq hlang.plainVisibilities hsplit' hat',
    hlast.visibility (Option.isSome_of_eq_some hat)]

end

/-- **Inspection sees the same** where the lines up to the header show the same; only the offsets of
    the keyword on its line may be others. -/
theorem inspect?_showSame (hlang : lang.Customary) {found : Found} {s : Inspection}
    (hs : b.inspect? lang found = some s)
    (h : lang.ShowSame false (b.spanLines s.span) (b'.spanLines s.span)) :
    ∃ header', header'.line = s.header.line ∧
      b'.inspect? lang found = some { s with header := header' } := by
  unfold inspect? at hs ⊢
  split at hs
  · cases hs
  · next hkind =>
    obtain ⟨header, hheader, rfl⟩ := Option.map_eq_some_iff.1 hs
    change lang.ShowSame false (b.spanLines ⟨found.target.lineFrom, header.line⟩)
      (b'.spanLines ⟨found.target.lineFrom, header.line⟩) at h
    obtain ⟨header', hheader', hline⟩ := findHeader?_showSame hheader h
    refine ⟨header', hline, ?_⟩
    rw [if_neg hkind, hheader', Option.map_some,
      funext (hasModifier_showSame hlang h hheader hheader' hline),
      visibilityOf_showSame hlang h hheader hheader' hline]

end

end Buffer

/-! ## Normalizing -/

namespace Editor

/-- **Normalizing keeps what inspection sees.** In a table that can be built, with clean access
    names, take a declaration that can be inspected, with a header whose lines normalization can
    work on. Then normalizing it does not fail, and it can be inspected again, with its header on
    the same line, the same visibility and the same modifiers. -/
theorem normalize_keepsInspection {name base : Text} {opts : LanguageOptions} {lang : Language}
    (hbuild : Language.build name base opts = .ok lang) (hclean : lang.CleanAccess)
    (scope : Option ToggleScope) {found : Found} {s : Inspection} {w : Work}
    (hw : w.writesLeft = none) (hs : w.buffer.inspect? lang found = some s)
    (hlines : Language.EachLine lang.Normalizable false (w.buffer.spanLines s.span)) :
    let o := normalize ⟨lang, scope⟩ s.span w
    o.error = none ∧
      ∃ s', o.work.buffer.inspect? lang found = some s' ∧ s'.header.line = s.header.line ∧
        s'.visibility = s.visibility ∧ ∀ m, s'.has m = s.has m := by
  have hlang := Language.build_customary hbuild hclean
  have hshows : (normalize ⟨lang, scope⟩ s.span).Shows lang s.span w :=
    normalize_shows hlang s.span hw hlines
  obtain ⟨header', hline, hs'⟩ := Buffer.inspect?_showSame hlang hs hshows.showSame
  exact ⟨hshows.error, _, hs', hline, rfl, fun _ => rfl⟩

/-- A method header on two lines, below a comment that speaks of modifiers. -/
def documentedWork : Work :=
  { buffer := Buffer.ofText (utf8 "/* not static,\n private */\noverride @:noCompletion // final\n"
      ++ utf8 "\tinline static @:final public function f() \x7b\x7d") }

/-- The method, as the engine reports it. -/
def documentedMethod : Found where
  enclosing := { declaration := { name := utf8 "A", lineFrom := 0, lineTo := 3 } }
  member := some { name := utf8 "f", lineFrom := 0, lineTo := 3, flags := .function }

/-- All passes have something to do on this header. -/
theorem normalize_keepsInspection_documented :
    let lang := Language.haxe { startWithModifiers := true }
    Language.build [] (utf8 "haxe") { startWithModifiers := true } = .ok lang ∧
    lang.CleanAccess ∧
    ∃ s s', documentedWork.buffer.inspect? lang documentedMethod = some s ∧
      Language.EachLine lang.Normalizable false (documentedWork.buffer.spanLines s.span) ∧
      let o := normalize ⟨lang, none⟩ s.span documentedWork
      o.work.buffer.text = utf8 "/* not static,\n private */\n@:noCompletion override // final\n"
        ++ utf8 "\t@:final public static inline function f() \x7b\x7d" ∧
      o.error = none ∧ o.work.buffer.inspect? lang documentedMethod = some s' ∧
      s'.header.line = s.header.line ∧ s'.visibility = s.visibility ∧ ∀ m, s'.has m = s.has m := by
  intro lang
  have hbuild : Language.build [] (utf8 "haxe") { startWithModifiers := true } = .ok lang := rfl
  have hclean : lang.CleanAccess := fun v hv => absurd hv List.not_mem_nil
  have hedits : (documentedWork.buffer.inspect? lang documentedMethod).any (fun s =>
      Language.EachLine lang.Normalizable false (documentedWork.buffer.spanLines s.span) ∧
      (normalize ⟨lang, none⟩ s.span documentedWork).work.buffer.text
        = utf8 "/* not static,\n private */\n@:noCompletion override // final\n"
          ++ utf8 "\t@:final public static inline function f() \x7b\x7d") = true := by
    decide +kernel
  obtain ⟨s, hs, hedits⟩ := (Option.any_eq_true _ _).1 hedits
  obtain ⟨hlines, htext⟩ := of_decide_eq_true hedits
  obtain ⟨herror, s', hs', hsame⟩ := normalize_keepsInspection hbuild hclean none rfl hs hlines
  exact ⟨hbuild, hclean, s, s', hs, hlines, htext, herror, hs', hsame⟩

/-- A method whose header starts where a comment ends. -/
def commentedWork : Work :=
  { buffer := Buffer.ofText (utf8 "/* doc\n */ static @:final function f() \x7b\x7d") }

/-- The method, as the engine reports it. -/
def commentedMethod : Found where
  enclosing := { declaration := { name := utf8 "A", lineFrom := 0, lineTo := 1 } }
  member := some { name := utf8 "f", lineFrom := 0, lineTo := 1, flags := .function }

/-- Behind the indentation of a line is not always code: here `@:final` is moved into the comment,
    and inspection no longer sees it. -/
theorem normalize_hides_final :
    Language.build [] (utf8 "haxe") {} = .ok (Language.haxe {}) ∧
    (Language.haxe {}).CleanAccess ∧ commentedMethod.Unmarked ∧
    ∃ s s', commentedWork.buffer.inspect? (Language.haxe {}) commentedMethod = some s ∧
      let o := normalize ⟨Language.haxe {}, none⟩ s.span commentedWork
      o.error = none ∧
      o.work.buffer.text = utf8 "/* doc\n @:final */ static function f() \x7b\x7d" ∧
      o.work.buffer.inspect? (Language.haxe {}) commentedMethod = some s' ∧
      s.has .final = true ∧ s'.has .final = false := by
  have hunmarked : commentedMethod.Unmarked := by constructor <;> decide
  have hedits : (commentedWork.buffer.inspect? (Language.haxe {}) commentedMethod).any (fun s =>
      let o := normalize ⟨Language.haxe {}, none⟩ s.span commentedWork
      o.error = none ∧
      o.work.buffer.text = utf8 "/* doc\n @:final */ static function f() \x7b\x7d" ∧
      s.has .final ∧
      (o.work.buffer.inspect? (Language.haxe {}) commentedMethod).any (!·.has .final)) = true := by
    decide +kernel
  obtain ⟨s, hs, hedits⟩ := (Option.any_eq_true _ _).1 hedits
  obtain ⟨herror, htext, hfinal, hlost⟩ := of_decide_eq_true hedits
  obtain ⟨s', hs', hlost⟩ := (Option.any_eq_true _ _).1 hlost
  exact ⟨rfl, fun v hv => absurd hv List.not_mem_nil, hunmarked, s, s', hs, herror, htext, hs',
    hfinal, by simpa using hlost⟩

/-- Where visibilities go first, other lines that are not fit for it lose something as well: white
    space that is no blank, a visibility or a comment inside a longer word, and `@:final` inside
    one. -/
example : ∀ x ∈ [utf8 "static public\x0cfunction f()", utf8 "static @a(public private function f()",
      utf8 "@/*x foo @*/ public static function f()",
      utf8 "static @(@:final (public private function f()"],
    let lang := Language.haxe { startWithModifiers := true }
    let w : Work := { buffer := Buffer.ofText x }
    let found : Found :=
      { enclosing := { declaration := { name := [], lineFrom := 0, lineTo := 0 } }
        member := some { name := utf8 "f", lineFrom := 0, lineTo := 0, flags := .function } }
    (w.buffer.inspect? lang found).any fun s =>
      ((normalize ⟨lang, none⟩ s.span w).work.buffer.inspect? lang found).all
        (·.visibility != s.visibility) := by
  decide +kernel

end Editor

end ModifierToggle
