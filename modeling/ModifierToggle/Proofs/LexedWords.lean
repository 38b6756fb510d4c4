import ModifierToggle.Proofs.CommentLexer
import ModifierToggle.Proofs.WhiteGaps

set_option autoImplicit false

/-! # Words under the lexer

The lexer of comments looks no further than one byte ahead, and only for a slash or a star. So a
text is lexed piece by piece wherever neither of the two starts the next piece
(`LexState.after_append`, `shown_append`), and white space between words changes nothing
(`LexState.after_clear`). What the words of a text show then depends on the words and their order
alone: `shownWords` reads them one after the other. The words of the code are the words of what they
show (`words_shown`), and a word without a slash or a star can be taken from one place to another
without a change to what the others show (`mem_standing_move`). -/

namespace ModifierToggle.Comment

/-- Neither a slash nor a star starts the text. -/
def StartsClear (v : Text) : Prop := ∀ b ∈ v.head?, b ≠ Byte.slash ∧ b ≠ Byte.star

/-- There is neither a slash nor a star in the text. -/
def IsClear (v : Text) : Prop := ∀ b ∈ v, b ≠ Byte.slash ∧ b ≠ Byte.star

theorem IsClear.startsClear {v : Text} (hv : IsClear v) : StartsClear v := fun b hb =>
  hv b (List.mem_of_mem_head? hb)

theorem StartsClear.append {u v : Text} (hu : StartsClear u) (hv : u = [] → StartsClear v) :
    StartsClear (u ++ v) := by
  cases u with
  | nil => exact hv rfl
  | cons b u => exact hu

theorem isClear_blanks {v : Text} (hv : ∀ b ∈ v, Byte.isBlank b = true) : IsClear v :=
  (Text.isGap_blanks hv).clear

theorem isClear_space : IsClear [Byte.space] := isClear_blanks (List.forall_mem_singleton.2 rfl)

variable {st : LexState} {u v : Text}

namespace LexState

/-- The state behind a text that is followed by neither a slash nor a star. -/
def after (st : LexState) (x : Text) : LexState := st.stateAt x x.length

@[simp] theorem after_nil (st : LexState) : st.after [] = st := rfl

@[simp] theorem after_cons (st : LexState) (b : UInt8) (x : Text) :
    st.after (b :: x) = (st.next b x.head?).after x := rfl

theorem next_clear {ahead : Option UInt8} (h : ∀ b ∈ ahead, b ≠ Byte.slash ∧ b ≠ Byte.star)
    (st : LexState) (b : UInt8) : st.next b ahead = st.next b none := by
  have hslash : ahead ≠ some Byte.slash := fun heq => (h _ heq).1 rfl
  have hstar : ahead ≠ some Byte.star := fun heq => (h _ heq).2 rfl
  cases st <;> simp [next, hslash, hstar]

theorem next_append (hv : StartsClear v) (st : LexState) (b : UInt8) (u : Text) :
    st.next b (u ++ v).head? = st.next b u.head? := by
  cases u with
  | nil => exact next_clear hv st b
  | cons c u => rfl

theorem after_append (hv : StartsClear v) (st : LexState) (u : Text) :
    st.after (u ++ v) = (st.after u).after v := by
  induction u generalizing st with
  | nil => rfl
  | cons b u ih => rw [List.cons_append, after_cons, next_append hv, ih, after_cons]

/-- A byte that is not shown as a space is in code, or in a comment up to the end of the line. -/
theorem code_or_line_of_place {st' : LexState} (h : st.place st' ≠ .block) :
    st' = .code ∨ st' = .line := by
  cases st <;> cases st' <;> simp_all [place]

/-- The lexer is not between the two bytes that open or close a comment. -/
def Settled (st : LexState) : Prop := st = .code ∨ st = .block ∨ st = .line

theorem settled_after_cons (st : LexState) (b : UInt8) (x : Text) :
    (st.after (b :: x)).Settled := by
  induction x generalizing st b with
  | nil => cases st <;> simp [next, Settled]
  | cons c x ih => exact ih _ c

theorem Settled.after (h : st.Settled) (x : Text) : (st.after x).Settled := by
  cases x with
  | nil => exact h
  | cons b x => exact settled_after_cons st b x

theorem Settled.next_clear (h : st.Settled) {b : UInt8} (hb : b ≠ Byte.slash ∧ b ≠ Byte.star)
    (ahead : Option UInt8) : st.next b ahead = st := by
  rcases h with rfl | rfl | rfl <;> simp [next, hb.1, hb.2]

/-- Text without a slash or a star leaves the lexer where it is. -/
theorem Settled.after_clear (h : st.Settled) (hu : IsClear u) : st.after u = st := by
  induction u with
  | nil => rfl
  | cons b u ih =>
    rw [after_cons, h.next_clear (hu b List.mem_cons_self)]
    exact ih fun c hc => hu c (List.mem_cons_of_mem _ hc)

end LexState

open LexState (Settled)

/-! ## What is shown piece by piece -/

theorem shown_append (hv : StartsClear v) (st : LexState) (u : Text) :
    shown st (u ++ v) = shown st u ++ shown (st.after u) v := by
  induction u generalizing st with
  | nil => rfl
  | cons b u ih =>
    rw [List.cons_append, shown, LexState.next_append hv, ih, shown]
    rfl

/-- Text without a slash or a star is shown as it is, or as spaces. -/
theorem shown_clear (h : st.Settled) (hu : IsClear u) :
    shown st u = if st = .block then List.replicate u.length Byte.space else u := by
  induction u with
  | nil => simp [shown]
  | cons b u ih =>
    have hrest := ih fun c hc => hu c (List.mem_cons_of_mem _ hc)
    rw [shown, h.next_clear (hu b List.mem_cons_self), hrest]
    rcases h with rfl | rfl | rfl <;> simp [LexState.place, List.replicate_succ]

theorem mem_standing_shown (h : st.Settled) (hu : IsClear u) (hword : ∀ b ∈ u, Byte.isWord b = true)
    {k : Text} (hk : k ∈ (shown st u).standing) : k = u := by
  rw [shown_clear h hu] at hk
  split at hk
  · have hnone := Text.standing_blanks_behind [] (Text.isBlank_spaces u.length)
    rw [List.nil_append] at hnone
    rw [hnone] at hk
    cases hk
  · by_cases hne : u = []
    · rw [hne] at hk
      cases hk
    · rw [Text.standing_word hword hne] at hk
      exact List.mem_singleton.1 hk

theorem shown_ne_nil (hne : u ≠ []) : shown st u ≠ [] := by
  intro hnil
  have hlength := length_shown st u
  rw [hnil] at hlength
  exact hne (List.length_eq_zero_iff.1 hlength.symm)

theorem shown_blanks (h : st.Settled) (hu : ∀ b ∈ u, Byte.isBlank b = true) :
    ∀ b ∈ shown st u, Byte.isBlank b = true := by
  intro b hb
  rw [shown_clear h (isClear_blanks hu)] at hb
  split at hb
  · exact Text.isBlank_spaces _ b hb
  · exact hu b hb

/-- A text that ends with a blank shows one there. -/
theorem isBlank_getLast_shown (h : st.Settled) (hu : ∀ b ∈ u.getLast?, Byte.isBlank b = true) :
    ∀ b ∈ (shown st u).getLast?, Byte.isBlank b = true := by
  cases u using List.reverseRecOn with
  | nil => simp [shown]
  | append_singleton u c =>
    have hc : ∀ b ∈ [c], Byte.isBlank b = true := by simpa using hu
    intro b hb
    rw [shown_append (isClear_blanks hc).startsClear,
      List.getLast?_append_of_ne_nil _ (shown_ne_nil (List.cons_ne_nil c []))] at hb
    exact shown_blanks (h.after u) hc b (List.mem_of_getLast? hb)

theorem isGap_shown (h : st.Settled) (hu : u.IsGap) : (shown st u).IsGap := by
  rw [shown_clear h hu.clear]
  split
  · exact Text.isGap_blanks (Text.isBlank_spaces _)
  · exact hu

theorem Mode.settled (m : Mode) : m.state.Settled := by
  cases m with
  | code => exact .inl rfl
  | block width => exact .inr (.inl rfl)

/-- **Reading up to a point outside comments** is what the lexer does that is in code there. -/
theorem Reads.lexed {m : Mode} {x code : Text} (h : Reads m x code) :
    m.state.after x = .code ∧ code = List.replicate m.width Byte.space ++ shown m.state x := by
  induction h with
  | nil => exact ⟨rfl, rfl⟩
  | byte hb _ ih =>
    obtain ⟨hafter, rfl⟩ := ih
    simp only [Mode.state, Mode.width, LexState.after_cons, shown, next_code hb] at hafter ⊢
    exact ⟨hafter, rfl⟩
  | opening _ ih =>
    obtain ⟨hafter, rfl⟩ := ih
    exact ⟨hafter, rfl⟩
  | @inside width b x code hb _ ih =>
    obtain ⟨hafter, rfl⟩ := ih
    simp only [Mode.state, Mode.width, LexState.after_cons, shown, next_block hb] at hafter ⊢
    refine ⟨hafter, ?_⟩
    rw [List.replicate_succ', List.append_assoc]
    rfl
  | @closing width x code _ ih =>
    obtain ⟨hafter, rfl⟩ := ih
    refine ⟨hafter, ?_⟩
    show _ = List.replicate width Byte.space ++ Byte.space :: Byte.space :: shown .code x
    rw [List.replicate_add, List.append_assoc]
    rfl

theorem reads_shown (m : Mode) (x : Text) (h : m.state.after x = .code) :
    Reads m x (List.replicate m.width Byte.space ++ shown m.state x) := by
  match m, x with
  | .code, [] => exact .nil
  | .block width, [] => cases h
  | .code, b :: x =>
    by_cases hopens : Opens b x
    · obtain ⟨rfl, hhead | hhead⟩ := hopens
      · -- a comment up to the end of the line is not left again
        obtain ⟨x, rfl⟩ := List.head?_eq_some_iff.1 hhead
        have hline : LexState.line.after (Byte.slash :: x) = .code := h
        rw [LexState.after, LexState.stateAt_line] at hline
        cases hline
      · obtain ⟨x, rfl⟩ := List.head?_eq_some_iff.1 hhead
        exact .opening (reads_shown (.block 2) x h)
    · simp only [Mode.state, Mode.width, LexState.after_cons, shown, next_code hopens] at h ⊢
      exact .byte hopens (reads_shown .code x h)
  | .block width, b :: x =>
    by_cases hcloses : Closes b x
    · obtain ⟨rfl, hhead⟩ := hcloses
      obtain ⟨x, rfl⟩ := List.head?_eq_some_iff.1 hhead
      have hread : Reads (.block width) (Byte.star :: Byte.slash :: x) _ :=
        .closing (reads_shown .code x h)
      rw [List.replicate_add, List.append_assoc] at hread
      exact hread
    · simp only [Mode.state, Mode.width, LexState.after_cons, shown, next_block hcloses] at h ⊢
      have hread := Reads.inside hcloses (reads_shown (.block (width + 1)) x h)
      rw [Mode.width, List.replicate_succ', List.append_assoc] at hread
      exact hread
termination_by x.length

/-! ### Across gaps -/

section

variable {gap : Text} (h : st.Settled) (hgap : IsClear gap) (hv : StartsClear v)

include h hgap hv

theorem after_gap (u : Text) : st.after (u ++ (gap ++ v)) = (st.after u).after v := by
  rw [LexState.after_append (hgap.startsClear.append fun _ => hv), LexState.after_append hv,
    (h.after u).after_clear hgap]

theorem shown_gap (u : Text) :
    shown st (u ++ (gap ++ v))
      = shown st u ++ (shown (st.after u) gap ++ shown (st.after u) v) := by
  rw [shown_append (hgap.startsClear.append fun _ => hv), shown_append hv,
    (h.after u).after_clear hgap]

end

/-! ### Standing words -/

/-- The words that stand in a text are those that stand in its words. -/
def StandsByWords (t : Text) : Prop := t.standing = t.words.flatMap fun w => w.standing

theorem standsByWords_unbroken (hu : u.IsUnbroken) : StandsByWords u := by
  by_cases hne : u = []
  · rw [hne]
    rfl
  · rw [StandsByWords, hu.words_eq hne]
    simp

theorem StandsByWords.space (hu : StandsByWords u) (hv : StandsByWords v) :
    StandsByWords (u ++ Byte.space :: v) := by
  unfold StandsByWords at hu hv ⊢
  rw [Text.standing_append_closed u (Text.closesWord_space v) (by simp),
    Text.standing_separator (by decide), Text.words_append_white (by decide), List.flatMap_append,
    hu, hv]

/-- What is shown of an unbroken text is broken only by the spaces of comments. The part `u` has
    been shown already, with no comment since its start. -/
theorem standsByWords_shown_from (x : Text) (st : LexState) (u : Text)
    (hu : st = .code ∨ st = .line ∨ u = []) (h : (u ++ x).IsUnbroken) :
    StandsByWords (u ++ shown st x) := by
  induction x generalizing st u with
  | nil => exact standsByWords_unbroken h
  | cons b x ih =>
    have hrest : Text.IsUnbroken x := h.suffix.tail
    rw [shown]
    split
    · next hplace =>
      have hfront : u.IsUnbroken := by
        rcases hu with rfl | rfl | rfl
        · -- only a slash is shown as a space from code on
          have hslash : b = Byte.slash := by
            by_contra hne
            simp [LexState.next, LexState.place, hne] at hplace
          subst hslash
          exact h.before_ascii (by decide)
        · cases hplace
        · exact fun p hp => by cases hp
      exact (standsByWords_unbroken hfront).space (ih _ [] (.inr (.inr rfl)) hrest)
    · next hplace =>
      rw [List.append_cons] at h ⊢
      have hshown := LexState.code_or_line_of_place hplace
      exact ih _ (u ++ [b]) (hshown.imp id .inl) h

theorem standsByWords_shown (hu : u.IsUnbroken) : StandsByWords (shown st u) :=
  standsByWords_shown_from u st [] (.inr (.inr rfl)) hu

/-! ## Words one after the other -/

/-- The state behind words that are read one after the other. -/
def LexState.afterWords (st : LexState) (ws : List Text) : LexState := ws.foldl LexState.after st

/-- What is shown of words that are read one after the other. -/
def shownWords : LexState → List Text → List Text
  | _, [] => []
  | st, w :: ws => shown st w :: shownWords (st.after w) ws

theorem shownWords_append (st : LexState) (ws ws' : List Text) :
    shownWords st (ws ++ ws') = shownWords st ws ++ shownWords (st.afterWords ws) ws' := by
  induction ws generalizing st with
  | nil => rfl
  | cons w ws ih => exact congrArg (_ :: ·) (ih (st.after w))

theorem standing_shownWords (st : LexState) {ws : List Text} (hws : ∀ w ∈ ws, w.IsUnbroken) :
    (shownWords st ws).flatMap (fun c => c.words.flatMap fun w => w.standing)
      = (shownWords st ws).flatMap fun c => c.standing := by
  induction ws generalizing st with
  | nil => rfl
  | cons w ws ih =>
    have hw : StandsByWords (shown st w) := standsByWords_shown (hws w List.mem_cons_self)
    have hrest := ih (st.after w) fun v hv => hws v (List.mem_cons_of_mem _ hv)
    rw [shownWords, List.flatMap_cons, List.flatMap_cons, ← hw, hrest]

theorem LexState.Settled.afterWords (h : st.Settled) (ws : List Text) :
    (st.afterWords ws).Settled := by
  induction ws generalizing st with
  | nil => exact h
  | cons w ws ih => exact ih (h.after w)

/-! ### A word taken from one place to another -/

section

variable {w : Text} (hw : IsClear w)

include hw

theorem afterWords_insert (h : st.Settled) (ws ws' : List Text) :
    st.afterWords (ws ++ w :: ws') = st.afterWords (ws ++ ws') := by
  unfold LexState.afterWords
  rw [List.foldl_append, List.foldl_cons, List.foldl_append]
  exact congrArg (ws'.foldl LexState.after ·) ((h.afterWords ws).after_clear hw)

/-- A word that is moved takes the lexer nowhere. -/
theorem afterWords_move (h : st.Settled) (lead mid ws : List Text) :
    st.afterWords (lead ++ w :: (mid ++ ws)) = st.afterWords ((lead ++ mid) ++ w :: ws) := by
  rw [afterWords_insert hw h, afterWords_insert hw h, List.append_assoc]

variable (hword : ∀ b ∈ w, Byte.isWord b = true) {k : Text} (hk : k ≠ w)

include hword hk

/-- A word of word bytes adds itself at most to the words that stand in what is shown. -/
theorem mem_standing_insert (h : st.Settled) (ws ws' : List Text) :
    k ∈ (shownWords st (ws ++ w :: ws')).flatMap (fun c => c.standing)
      ↔ k ∈ (shownWords st (ws ++ ws')).flatMap (fun c => c.standing) := by
  have hst := h.afterWords ws
  have hmiss : k ∉ (shown (st.afterWords ws) w).standing := fun hmem =>
    hk (mem_standing_shown hst hw hword hmem)
  rw [shownWords_append, shownWords_append, shownWords, hst.after_clear hw]
  simp only [List.flatMap_append, List.flatMap_cons, List.mem_append, hmiss, false_or]

/-- **The other words show the same wherever the word is.** -/
theorem mem_standing_move (h : st.Settled) (lead mid ws : List Text) :
    k ∈ (shownWords st (lead ++ w :: (mid ++ ws))).flatMap (fun c => c.standing)
      ↔ k ∈ (shownWords st ((lead ++ mid) ++ w :: ws)).flatMap (fun c => c.standing) := by
  rw [mem_standing_insert hw hword hk h, mem_standing_insert hw hword hk h, List.append_assoc]

end

/-! ### Words with spaces between them -/

section

variable {ws : List Text} (hws : ∀ w ∈ ws, StartsClear w ∧ w ≠ [])

include hws

theorem startsClear_join : StartsClear (Text.join [Byte.space] ws) := by
  match ws with
  | [] => simp [Text.join, StartsClear]
  | [w] => exact (hws w List.mem_cons_self).1
  | w :: next :: rest =>
    obtain ⟨hw, hne⟩ := hws w List.mem_cons_self
    rw [Text.join, List.append_assoc]
    exact hw.append fun hnil => absurd hnil hne

theorem after_join (h : st.Settled) : st.after (Text.join [Byte.space] ws) = st.afterWords ws := by
  induction ws generalizing st with
  | nil => rfl
  | cons w ws ih =>
    have hrest : ∀ v ∈ ws, StartsClear v ∧ v ≠ [] := fun v hv => hws v (List.mem_cons_of_mem _ hv)
    cases ws with
    | nil => rfl
    | cons next rest =>
      rw [Text.join, List.append_assoc,
        after_gap h isClear_space (startsClear_join hrest)]
      exact ih hrest (h.after w)

theorem shown_join (h : st.Settled) :
    shown st (Text.join [Byte.space] ws) = Text.join [Byte.space] (shownWords st ws) := by
  induction ws generalizing st with
  | nil => rfl
  | cons w ws ih =>
    have hrest : ∀ v ∈ ws, StartsClear v ∧ v ≠ [] := fun v hv => hws v (List.mem_cons_of_mem _ hv)
    cases ws with
    | nil => rfl
    | cons next rest =>
      have hspace : shown (st.after w) [Byte.space] = [Byte.space] := by
        rw [shown_clear (h.after w) isClear_space]
        split <;> rfl
      rw [Text.join, List.append_assoc,
        shown_gap h isClear_space (startsClear_join hrest), hspace,
        ih hrest (h.after w), ← List.append_assoc]
      rfl

end

/-! ### The words of a text -/

section

variable {ws : List Text} {run : Text} (hrun : Text.Apart ws run) (hws : ∀ w ∈ ws, StartsClear w)

include hrun hws

theorem startsClear_apart : StartsClear run := by
  cases hrun with
  | nil => simp [StartsClear]
  | last => exact hws _ List.mem_cons_self
  | cons hne => exact (hws _ List.mem_cons_self).append fun hnil => absurd hnil hne

theorem after_apart (h : st.Settled) : st.after run = st.afterWords ws := by
  induction hrun generalizing st with
  | nil => rfl
  | last => rfl
  | @cons w gap run ws hne _ hgap hgapNe hrun ih =>
    have hrest : ∀ v ∈ ws, StartsClear v := fun v hv => hws v (List.mem_cons_of_mem _ hv)
    rw [after_gap h hgap.clear (startsClear_apart hrun hrest)]
    exact ih hrest (h.after w)

theorem words_shown_apart (h : st.Settled) :
    (shown st run).words = (shownWords st ws).flatMap Text.words := by
  induction hrun generalizing st with
  | nil => rfl
  | last => simp [shownWords]
  | @cons w gap run ws hne _ hgap hgapNe hrun ih =>
    have hrest : ∀ v ∈ ws, StartsClear v := fun v hv => hws v (List.mem_cons_of_mem _ hv)
    rw [shown_gap h hgap.clear (startsClear_apart hrun hrest),
      (isGap_shown (h.after w) hgap).words_append (shown_ne_nil hgapNe), ih hrest (h.after w)]
    rfl

end

section

variable {t : Text} (ht : ∀ w ∈ t.words, StartsClear w)

include ht

theorem startsClear_of_words : StartsClear t := by
  obtain ⟨gap, run, htext, hgap, hrun⟩ := t.exists_apart
  rw [htext]
  exact (IsClear.startsClear hgap.clear).append fun _ => startsClear_apart hrun ht

/-- **The words of a text decide where the lexer is behind it,** -/
theorem after_eq_afterWords (h : st.Settled) : st.after t = st.afterWords t.words := by
  obtain ⟨gap, run, htext, hgap, hrun⟩ := t.exists_apart
  have hclear := startsClear_apart hrun ht
  rw [← after_apart hrun ht h]
  nth_rewrite 1 [htext]
  rw [LexState.after_append hclear, h.after_clear hgap.clear]

/-- and the words of its code are those of what they show. -/
theorem words_shown (h : st.Settled) :
    (shown st t).words = (shownWords st t.words).flatMap Text.words := by
  obtain ⟨gap, run, htext, hgap, hrun⟩ := t.exists_apart
  have hclear := startsClear_apart hrun ht
  rw [← words_shown_apart hrun ht h]
  nth_rewrite 1 [htext]
  rw [shown_append hclear, h.after_clear hgap.clear, (isGap_shown h hgap).words_front]

/-- So are the words that stand in them. -/
theorem standing_words_shown (h : st.Settled) :
    (shown st t).words.flatMap (fun c => c.standing)
      = (shownWords st t.words).flatMap fun c => c.standing := by
  obtain ⟨gap, run, -, -, hrun⟩ := t.exists_apart
  have hwhole : ∀ w ∈ t.words, w.IsUnbroken := fun w hw => (hrun.unbroken w hw).2
  rw [words_shown ht h, List.flatMap_assoc]
  exact standing_shownWords st hwhole

end

end ModifierToggle.Comment
