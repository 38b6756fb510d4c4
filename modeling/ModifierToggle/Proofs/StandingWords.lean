import Mathlib.Data.List.Induction
import ModifierToggle.Proofs.KeywordSearch

set_option autoImplicit false

/-! # The words that stand alone in a text

A search for keywords sees nothing of a text but the words that stand alone in it, in their order:
the longest runs of word bytes that are closed by white space or by the end of the text. `standing`
lists them. A text that is cut where no word is cut has the words of its two parts
(`standing_append`, `standing_append_closed`), so that moving a word with the white space beside it
moves it in the list; and the search finds the first of the list that is in the pattern
(`Plain.find?_cases`).

A slash with no more than word bytes between it and white space is *loose*. Cutting a word out
behind it, or moving one in front of it, can make it the opening of a comment; where there is none,
the same cuts are safe. -/

namespace ModifierToggle

namespace Text

/-- The words that stand alone in a text before which the word bytes `run` have been read. The end
    of the text closes a word when `atEnd` holds. -/
def standingFrom (atEnd : Bool) (run : Text) : Text → List Text
  | [] => if atEnd && !run.isEmpty then [run] else []
  | b :: rest =>
    if Byte.isWord b then standingFrom atEnd (run ++ [b]) rest
    else if Byte.isSeparator b && !run.isEmpty then run :: standingFrom atEnd [] rest
    else standingFrom atEnd [] rest

/-- The words that stand alone in a text. -/
def standing (t : Text) (atEnd : Bool := true) : List Text := standingFrom atEnd [] t

/-- The word bytes that a text ends with, when `run` has been read before it. -/
def openRun (run : Text) : Text → Text
  | [] => run
  | b :: rest => if Byte.isWord b then openRun (run ++ [b]) rest else openRun [] rest

/-- A word behind the text is not the rest of a longer one. -/
def EndsOutsideWord (u : Text) : Prop := ∀ b ∈ u.getLast?, Byte.isWord b = false

/-- A word in front of the text is closed. -/
def ClosesWord (v : Text) : Prop := ∀ b ∈ v.head?, Byte.isSeparator b = true

/-! ## Cutting a text between words -/

theorem EndsOutsideWord.nil : EndsOutsideWord [] := by simp [EndsOutsideWord]

theorem EndsOutsideWord.append {u v : Text} (hu : v = [] → EndsOutsideWord u)
    (hv : EndsOutsideWord v) : EndsOutsideWord (u ++ v) := by
  cases v using List.reverseRecOn with
  | nil => simpa using hu rfl
  | append_singleton v b =>
    have hb := hv b (by simp)
    intro c hc
    obtain rfl : b = c := by simpa [← List.append_assoc] using hc
    exact hb

theorem EndsOutsideWord.of_append {u v : Text} (h : EndsOutsideWord (u ++ v)) :
    EndsOutsideWord v := by
  intro b hb
  exact h b (by simp [List.getLast?_append, Option.mem_def.1 hb])

theorem endsOutsideWord_snoc {u : Text} {b : UInt8} (hb : Byte.isWord b = false) :
    EndsOutsideWord (u ++ [b]) :=
  .append (by simp) (by simpa [EndsOutsideWord] using hb)

/-- Induction along a text: it is a run of word bytes, or there is another byte behind such a run,
    and the rest of the text after that. -/
@[elab_as_elim]
theorem run_induction {P : Text → Prop} (run : ∀ w, (∀ b ∈ w, Byte.isWord b = true) → P w)
    (step : ∀ w b u, (∀ c ∈ w, Byte.isWord c = true) → Byte.isWord b = false → P u →
      P (w ++ b :: u)) (u : Text) : P u := by
  suffices hgeneral : ∀ w : Text, (∀ b ∈ w, Byte.isWord b = true) → P (w ++ u) from
    hgeneral [] (by simp)
  induction u with
  | nil =>
    intro w hw
    rw [List.append_nil]
    exact run w hw
  | cons b u ih =>
    intro w hw
    cases hb : Byte.isWord b with
    | true =>
      have hw' : ∀ c ∈ w ++ [b], Byte.isWord c = true := by
        simpa [or_imp, forall_and] using ⟨hw, hb⟩
      simpa using ih _ hw'
    | false => exact step w b u hw hb (ih [] (by simp))

section

variable {atEnd : Bool} {run u v w : Text}

theorem standingFrom_append (atEnd : Bool) (run u v : Text) :
    standingFrom atEnd run (u ++ v)
      = standingFrom false run u ++ standingFrom atEnd (openRun run u) v := by
  induction u generalizing run with
  | nil => simp [standingFrom, openRun]
  | cons b u ih =>
    rw [List.cons_append, standingFrom, standingFrom, openRun]
    split
    · exact ih _
    · split
      · rw [ih, List.cons_append]
      · exact ih _

theorem openRun_snoc (run u : Text) (b : UInt8) :
    openRun run (u ++ [b]) = if Byte.isWord b then openRun run u ++ [b] else [] := by
  induction u generalizing run with
  | nil => rfl
  | cons c u ih =>
    rw [List.cons_append, openRun, openRun]
    split
    · exact ih _
    · exact ih _

theorem EndsOutsideWord.openRun (hu : EndsOutsideWord u) : openRun [] u = [] := by
  cases u using List.reverseRecOn with
  | nil => rfl
  | append_singleton u b => rw [openRun_snoc, hu b (by simp)]; rfl

theorem EndsOutsideWord.standing_eq (hu : EndsOutsideWord u) :
    u.standing = standingFrom false [] u := by
  have happend := standingFrom_append true [] u []
  rw [List.append_nil, hu.openRun] at happend
  simpa [standing, standingFrom] using happend

/-- The words of a text that is cut where no word begins inside another. -/
theorem standing_append (hu : EndsOutsideWord u) (v : Text) (atEnd : Bool) :
    (u ++ v).standing atEnd = u.standing ++ v.standing atEnd := by
  rw [standing, standingFrom_append, hu.openRun, hu.standing_eq]
  rfl

theorem standingFrom_closed {s : UInt8} (hs : Byte.isSeparator s = true) (atEnd : Bool)
    (run rest : Text) :
    standingFrom atEnd run (s :: rest)
      = standingFrom true run [] ++ standingFrom atEnd [] rest := by
  have hword := Byte.isWord_of_isSeparator hs
  cases run <;> simp [standingFrom, hs, hword]

/-- The words of a text that is cut where a word is closed. -/
theorem standing_append_closed (u : Text) (hv : ClosesWord v) (hend : v = [] → atEnd = true) :
    (u ++ v).standing atEnd = u.standing ++ v.standing atEnd := by
  have hleft : u.standing = standingFrom false [] u ++ standingFrom true (openRun [] u) [] := by
    have happend := standingFrom_append true [] u []
    rwa [List.append_nil] at happend
  cases v with
  | nil => simp [hend rfl, standing, standingFrom]
  | cons s v =>
    have hs := hv s rfl
    rw [hleft, standing, standing, standingFrom_append, standingFrom_closed hs,
      standingFrom_closed hs]
    simp [standingFrom]

theorem standingFrom_run (hw : ∀ b ∈ w, Byte.isWord b = true) (atEnd : Bool) (run v : Text) :
    standingFrom atEnd run (w ++ v) = standingFrom atEnd (run ++ w) v := by
  induction w generalizing run with
  | nil => simp
  | cons b w ih =>
    rw [List.cons_append, standingFrom, if_pos (hw b List.mem_cons_self),
      ih fun c hc => hw c (List.mem_cons_of_mem _ hc)]
    simp

/-- The only word of a run of word bytes. -/
theorem standing_run (hw : ∀ b ∈ w, Byte.isWord b = true) (atEnd : Bool) :
    w.standing atEnd = if atEnd && !w.isEmpty then [w] else [] := by
  have hrun := standingFrom_run hw atEnd [] []
  rwa [List.append_nil] at hrun

theorem standing_run_snoc (hw : ∀ b ∈ w, Byte.isWord b = true) {b : UInt8}
    (hb : Byte.isWord b = false) :
    (w ++ [b]).standing = if Byte.isSeparator b && !w.isEmpty then [w] else [] := by
  rw [standing, standingFrom_run hw, List.nil_append, standingFrom, hb]
  simp [standingFrom]

/-- A word has itself for its only word. -/
theorem standing_word (hw : ∀ b ∈ w, Byte.isWord b = true) (hne : w ≠ []) : w.standing = [w] := by
  rw [standing_run hw]
  simp [hne]

/-- The words of a text that is split at one of them. -/
theorem standing_split (hu : EndsOutsideWord u) (hw : ∀ b ∈ w, Byte.isWord b = true)
    (hne : w ≠ []) (hv : ClosesWord v) (hend : v = [] → atEnd = true) :
    (u ++ (w ++ v)).standing atEnd = u.standing ++ w :: v.standing atEnd := by
  rw [standing_append hu, standing_append_closed w hv hend, standing_word hw hne]
  rfl

/-- What stands alone without the end of the text stands alone. -/
theorem mem_standing_of_closed (h : w ∈ u.standing false) : w ∈ u.standing := by
  have happend := standingFrom_append true [] u []
  rw [List.append_nil] at happend
  rw [standing, happend]
  exact List.mem_append_left _ h

/-- A text ends with word bytes, none of which belong to a word that begins before them. -/
theorem exists_lastWord (t : Text) :
    ∃ u w, t = u ++ w ∧ EndsOutsideWord u ∧ ∀ b ∈ w, Byte.isWord b = true := by
  induction t using List.reverseRecOn with
  | nil => exact ⟨[], [], rfl, .nil, by simp⟩
  | append_singleton t b ih =>
    cases hb : Byte.isWord b with
    | false => exact ⟨t ++ [b], [], by simp, endsOutsideWord_snoc hb, by simp⟩
    | true =>
      obtain ⟨u, w, rfl, hu, hw⟩ := ih
      refine ⟨u, w ++ [b], by simp, hu, ?_⟩
      simpa [or_imp, forall_and] using ⟨hw, hb⟩

/-- A text is split at the first of its words that satisfies a condition. -/
structure FirstStanding (q : Text → Prop) (atEnd : Bool) (t before w after : Text) : Prop where
  text_eq : t = before ++ (w ++ after)
  before_ends : EndsOutsideWord before
  isWord : ∀ b ∈ w, Byte.isWord b = true
  ne_nil : w ≠ []
  after_closes : ClosesWord after
  closedAtEnd : after = [] → atEnd = true
  holds : q w
  first : ∀ w' ∈ before.standing, ¬ q w'

/-- Words that do not satisfy the condition may stand before the text. -/
theorem FirstStanding.prepend {q : Text → Prop} {t before after front : Text}
    (h : FirstStanding q atEnd t before w after) (hfront : EndsOutsideWord front)
    (hmiss : ∀ w' ∈ front.standing, ¬ q w') :
    FirstStanding q atEnd (front ++ t) (front ++ before) w after where
  text_eq := by rw [h.text_eq, List.append_assoc]
  before_ends := .append (fun _ => hfront) h.before_ends
  isWord := h.isWord
  ne_nil := h.ne_nil
  after_closes := h.after_closes
  closedAtEnd := h.closedAtEnd
  holds := h.holds
  first := by
    rw [standing_append hfront]
    intro w' hw'
    rcases List.mem_append.1 hw' with hw' | hw'
    · exact hmiss w' hw'
    · exact h.first w' hw'

theorem FirstStanding.standing_eq {q : Text → Prop} {t before after : Text}
    (h : FirstStanding q atEnd t before w after) :
    t.standing atEnd = before.standing ++ w :: after.standing atEnd := by
  rw [h.text_eq]
  exact standing_split h.before_ends h.isWord h.ne_nil h.after_closes h.closedAtEnd

theorem exists_firstStanding {q : Text → Prop} (h : ∃ w ∈ u.standing atEnd, q w) :
    ∃ before w after, FirstStanding q atEnd u before w after := by
  induction u using run_induction with
  | run w hw =>
    obtain ⟨w', hw', hq⟩ := h
    rw [standing_run hw] at hw'
    split at hw'
    · next hend =>
      obtain rfl := List.mem_singleton.1 hw'
      rw [Bool.and_eq_true, Bool.not_eq_true', List.isEmpty_eq_false_iff] at hend
      exact ⟨[], w', [], by simp, .nil, hw, hend.2, by simp [ClosesWord], fun _ => hend.1, hq,
        by simp [standing, standingFrom]⟩
    · cases hw'
  | step w b u hw hb ih =>
    have hfront : EndsOutsideWord (w ++ [b]) := endsOutsideWord_snoc hb
    have hcons : w ++ b :: u = w ++ [b] ++ u := by simp
    by_cases hhere : ∃ w' ∈ (w ++ [b]).standing, q w'
    · obtain ⟨w', hw', hq⟩ := hhere
      rw [standing_run_snoc hw hb] at hw'
      split at hw'
      · next hsep =>
        obtain rfl := List.mem_singleton.1 hw'
        rw [Bool.and_eq_true, Bool.not_eq_true', List.isEmpty_eq_false_iff] at hsep
        exact ⟨[], w', b :: u, rfl, .nil, hw, hsep.2, by simpa [ClosesWord] using hsep.1, by simp,
          hq, by simp [standing, standingFrom]⟩
      · cases hw'
    · -- a word that is passed over goes to the words before the one in question
      rw [hcons] at h ⊢
      simp only [standing_append hfront, List.mem_append, or_and_right, exists_or] at h
      obtain ⟨before, w', after, hfirst⟩ := ih (h.resolve_left hhere)
      exact ⟨_, w', after, hfirst.prepend hfront fun v hv hq => hhere ⟨v, hv, hq⟩⟩

end

/-! ## Loose slashes -/

/-- Whether a slash is loose in a text. A slash and only word bytes after it have just been read
    when `after` holds, and the end of the text is as good as white space when `atEnd` holds. -/
def looseSlashFrom (atEnd after : Bool) : Text → Bool
  | [] => atEnd && after
  | b :: rest =>
    (after && Byte.isSeparator b)
      || looseSlashFrom atEnd (b == Byte.slash || (after && Byte.isWord b)) rest

/-- Whether only word bytes stand between a slash and the white space or the end behind it. -/
def hasLooseSlash (t : Text) : Bool := looseSlashFrom true false t

/-- Whether a text ends with a slash and word bytes, when `after` tells it of what stands before. -/
def endsInSlash (after : Bool) : Text → Bool
  | [] => after
  | b :: rest => endsInSlash (b == Byte.slash || (after && Byte.isWord b)) rest

section

variable {u v w : Text}

theorem looseSlashFrom_append (atEnd after : Bool) (u v : Text) :
    looseSlashFrom atEnd after (u ++ v)
      = (looseSlashFrom false after u || looseSlashFrom atEnd (endsInSlash after u) v) := by
  induction u generalizing after with
  | nil => simp [looseSlashFrom, endsInSlash]
  | cons b u ih =>
    rw [List.cons_append, looseSlashFrom, looseSlashFrom, endsInSlash, ih, Bool.or_assoc]

theorem hasLooseSlash_eq (u : Text) :
    u.hasLooseSlash = (looseSlashFrom false false u || endsInSlash false u) := by
  have happend := looseSlashFrom_append true false u []
  rwa [List.append_nil, looseSlashFrom, Bool.true_and] at happend

theorem endsInSlash_snoc (after : Bool) (u : Text) (b : UInt8) :
    endsInSlash after (u ++ [b])
      = (b == Byte.slash || (endsInSlash after u && Byte.isWord b)) := by
  induction u generalizing after with
  | nil => rfl
  | cons c u ih => rw [List.cons_append, endsInSlash, endsInSlash, ih]

/-- A cut behind a byte that is neither a slash nor a word byte leaves no slash in doubt. -/
theorem hasLooseSlash_append (hu : EndsOutsideWord u) (hslash : u.getLast? ≠ some Byte.slash)
    (v : Text) : (u ++ v).hasLooseSlash = (u.hasLooseSlash || v.hasLooseSlash) := by
  have hends : endsInSlash false u = false := by
    cases u using List.reverseRecOn with
    | nil => rfl
    | append_singleton u b =>
      have hb : b ≠ Byte.slash := by simpa using hslash
      rw [endsInSlash_snoc, hu b (by simp)]
      simpa using hb
  rw [hasLooseSlash, looseSlashFrom_append, hasLooseSlash_eq u, hends, Bool.or_false,
    hasLooseSlash]

/-- So does a cut in front of white space. -/
theorem hasLooseSlash_append_closed (u : Text) (hv : ClosesWord v) :
    (u ++ v).hasLooseSlash = (u.hasLooseSlash || v.hasLooseSlash) := by
  cases v with
  | nil => simp [hasLooseSlash, looseSlashFrom]
  | cons s v =>
    have hs := hv s rfl
    have hstep : ∀ after, looseSlashFrom true after (s :: v)
        = (after || looseSlashFrom true false v) := by
      intro after
      have hslash : (s == Byte.slash) = false := by simpa using Byte.ne_slash_of_isSeparator hs
      rw [looseSlashFrom, hs, hslash, Byte.isWord_of_isSeparator hs]
      simp
    rw [hasLooseSlash, looseSlashFrom_append, hasLooseSlash_eq u, hasLooseSlash, hstep, hstep]
    simp [Bool.or_assoc]

theorem hasLooseSlash_of_noSlash (hu : ∀ b ∈ u, b ≠ Byte.slash) : u.hasLooseSlash = false := by
  induction u with
  | nil => rfl
  | cons b u ih =>
    have hb : (b == Byte.slash) = false := by simpa using hu b List.mem_cons_self
    rw [hasLooseSlash, looseSlashFrom, hb]
    simpa [hasLooseSlash] using ih fun c hc => hu c (List.mem_cons_of_mem _ hc)

/-- Directly before a word that stands alone, a slash is loose. -/
theorem looseSlashFrom_word (hw : ∀ b ∈ w, Byte.isWord b = true) (hv : ClosesWord v) :
    looseSlashFrom true true (w ++ v) = true := by
  induction w with
  | nil =>
    cases v with
    | nil => rfl
    | cons s v => simp [looseSlashFrom, hv s rfl]
  | cons b w ih =>
    have hrest := ih fun c hc => hw c (List.mem_cons_of_mem _ hc)
    simp [looseSlashFrom, hw b List.mem_cons_self, hrest]

theorem not_slash_before_word (hw : ∀ b ∈ w, Byte.isWord b = true) (hv : ClosesWord v)
    (h : (u ++ (w ++ v)).hasLooseSlash = false) : u.getLast? ≠ some Byte.slash := by
  intro hlast
  obtain ⟨u', rfl⟩ := List.getLast?_eq_some_iff.1 hlast
  rw [hasLooseSlash, looseSlashFrom_append, endsInSlash_snoc, BEq.rfl, Bool.true_or,
    looseSlashFrom_word hw hv, Bool.or_true] at h
  cases h

end

end Text

/-! ## What the search for a pattern finds -/

namespace Keyword.Pattern

open Text (EndsOutsideWord ClosesWord FirstStanding standingFrom)

variable {p : Pattern}

theorem closing?_eq_some {v : Text} (hv : ClosesWord v) (hend : v = [] → p.atEnd = true) :
    ∃ n, p.closing? v = some n := by
  cases v with
  | nil => simp [closing?, hend rfl]
  | cons s v => simp [closing?, hv s rfl]

/-- The search passes over a text none of whose words is in the pattern. -/
theorem Plain.scan_passes (hp : p.Plain) {u : Text} (hu : EndsOutsideWord u)
    (hmiss : ∀ w ∈ u.standing, w ∉ p.words) (pos : Nat) (rest : Text) :
    p.scan pos false 0 (u ++ rest) = p.scan (pos + u.length) false 0 rest := by
  induction u using Text.run_induction generalizing pos with
  | run w hw =>
    -- a run of word bytes that ends outside a word is empty
    cases w using List.reverseRecOn with
    | nil => rfl
    | append_singleton w b => exact absurd (hw b (by simp)) (by simp [hu b (by simp)])
  | step w b u hw hb ih =>
    have hcons : w ++ b :: u = w ++ [b] ++ u := by simp
    rw [hcons, Text.standing_append (Text.endsOutsideWord_snoc hb)] at hmiss
    have hclosing : (if w ∈ p.words then p.closing? (b :: (u ++ rest)) else none) = none := by
      by_cases hmem : w ∈ p.words
      · have hsep : Byte.isSeparator b = false := by
          cases hsep : Byte.isSeparator b with
          | false => rfl
          | true =>
            have hstanding : w ∈ (w ++ [b]).standing := by
              simp [Text.standing_run_snoc hw hb, hsep, (hp w hmem).1]
            exact absurd hmem (hmiss w (List.mem_append_left _ hstanding))
        simp [closing?, hsep]
      · rw [if_neg hmem]
    have hscan := ih (EndsOutsideWord.of_append (hcons ▸ hu))
      (fun v hv => hmiss v (List.mem_append_right _ hv)) (pos + w.length + 1)
    rw [List.append_assoc, List.cons_append, hp.scan_word hw (by simpa using hb), hclosing]
    simp only
    rw [scan, hp.front?_noWord hb, hb]
    simp only
    rw [hscan, List.length_append, List.length_cons]
    congr 1
    omega

/-- A word of the pattern is found where it first stands alone. -/
theorem Plain.find?_first (hp : p.Plain) {t u w v : Text}
    (h : FirstStanding (· ∈ p.words) p.atEnd t u w v) :
    ∃ at_, p.find? t = some at_ ∧ at_.start = u.length ∧ at_.stop = u.length + w.length := by
  obtain ⟨n, hn⟩ := closing?_eq_some h.after_closes h.closedAtEnd
  have hhead : ∀ b ∈ v.head?, Byte.isWord b = false := fun b hb =>
    Byte.isWord_of_isSeparator (h.after_closes b hb)
  refine ⟨⟨u.length, u.length + w.length, u.length + w.length + n⟩, ?_, rfl, rfl⟩
  rw [h.text_eq, hp.find?_eq, hp.scan_passes h.before_ends h.first, hp.scan_word h.isWord hhead,
    if_pos h.holds, hn]
  simp

theorem Plain.find?_eq_none (hp : p.Plain) {t : Text}
    (hmiss : ∀ w ∈ t.standing p.atEnd, w ∉ p.words) : p.find? t = none := by
  -- what stands before the last word is passed over, and the last word is not found
  obtain ⟨u, w, rfl, hu, hw⟩ := Text.exists_lastWord t
  rw [Text.standing_append hu] at hmiss
  have hlast : (if w ∈ p.words then p.closing? [] else none) = none := by
    by_cases hmem : w ∈ p.words
    · cases hend : p.atEnd with
      | false => simp [closing?, hend]
      | true =>
        rw [hend, Text.standing_word hw (hp w hmem).1] at hmiss
        exact absurd hmem (hmiss w (by simp))
    · rw [if_neg hmem]
  have hscan := hp.scan_word hw (v := []) (by simp) (0 + u.length)
  rw [List.append_nil, hlast] at hscan
  rw [hp.find?_eq, hp.scan_passes hu fun w hw => hmiss w (List.mem_append_left _ hw), hscan]
  rfl

/-- **The search finds the first of the words that stand alone which is in the pattern,** or nothing
    if there is none. -/
theorem Plain.find?_cases (hp : p.Plain) (t : Text) :
    (p.find? t = none ∧ ∀ w ∈ t.standing p.atEnd, w ∉ p.words) ∨
      ∃ u w v at_, FirstStanding (· ∈ p.words) p.atEnd t u w v ∧ p.find? t = some at_ ∧
        at_.start = u.length ∧ at_.stop = u.length + w.length := by
  by_cases hfound : ∃ w ∈ t.standing p.atEnd, w ∈ p.words
  · obtain ⟨u, w, v, hfirst⟩ := Text.exists_firstStanding hfound
    obtain ⟨at_, hat⟩ := hp.find?_first hfirst
    exact Or.inr ⟨u, w, v, at_, hfirst, hat⟩
  · have hmiss : ∀ w ∈ t.standing p.atEnd, w ∉ p.words := fun w hw hmem => hfound ⟨w, hw, hmem⟩
    exact Or.inl ⟨hp.find?_eq_none hmiss, hmiss⟩

theorem Plain.find?_isSome (hp : p.Plain) (t : Text) :
    (p.find? t).isSome = true ↔ ∃ w ∈ t.standing p.atEnd, w ∈ p.words := by
  rcases hp.find?_cases t with ⟨hnone, hmiss⟩ | ⟨u, w, v, at_, hfirst, hat, -⟩
  · rw [hnone]
    simpa using hmiss
  · rw [hat, hfirst.standing_eq]
    simp only [Option.isSome_some, true_iff]
    exact ⟨w, by simp, hfirst.holds⟩

/-- What is found is the first word in the pattern, in a pattern that the end of a text closes. -/
theorem Plain.find?_slice (hp : p.Plain) (hend : p.atEnd = true) (t : Text) :
    ((p.find? t).map fun at_ => t.slice at_.start at_.stop)
      = t.standing.find? fun w => decide (w ∈ p.words) := by
  rcases hp.find?_cases t with ⟨hnone, hmiss⟩ | ⟨u, w, v, at_, hfirst, hat, hstart, hstop⟩
  · rw [hnone, Option.map_none, List.find?_eq_none.2]
    simpa [hend] using hmiss
  · have hword : (u ++ (w ++ v)).slice u.length (u.length + w.length) = w := by
      simp [Text.slice, List.take_append]
    rw [hend] at hfirst
    rw [hat, Option.map_some, hstart, hstop, hfirst.standing_eq, List.find?_append,
      List.find?_eq_none.2 (by simpa using hfirst.first), hfirst.text_eq, hword]
    simp [hfirst.holds]

end Keyword.Pattern

end ModifierToggle
