import ModifierToggle.Proofs.KeywordSearch

set_option autoImplicit false

/-! # Occurrences in any text

What the search for keywords finds is one of its words (`scan_sound`). For a single keyword without
white space the search is exact: it finds the first place where the keyword stands alone, and finds
nothing only if there is none (`find?_isFirst`). That takes an argument, since the search jumps over
keywords that do not stand alone: where one of them lies, no other can begin before it is closed. -/

namespace ModifierToggle.Keyword

/-- The word stands alone at an offset of the text: no word byte stands before it, and white space
    or nothing follows it. -/
def StandsAlone (w t : Text) (p : Nat) : Prop :=
  ∃ u v, t = u ++ (w ++ v) ∧ u.length = p ∧ (∀ b ∈ u.getLast?, Byte.isWord b = false) ∧
    ∀ b ∈ v.head?, Byte.isSeparator b = true

/-- What is found is the first place where the word stands alone. -/
def IsFirst (w t : Text) : Option Occurrence → Prop
  | none => ∀ q, ¬ StandsAlone w t q
  | some at_ => StandsAlone w t at_.start ∧ at_.stop = at_.start + w.length ∧
      ∀ q < at_.start, ¬ StandsAlone w t q

theorem IsFirst.isSome_iff {w t : Text} {found : Option Occurrence} (h : IsFirst w t found) :
    found.isSome = true ↔ ∃ q, StandsAlone w t q := by
  cases found with
  | none => exact ⟨nofun, fun ⟨q, hq⟩ => absurd hq (h q)⟩
  | some at_ => exact ⟨fun _ => ⟨_, h.1⟩, fun _ => rfl⟩

namespace Pattern

variable {p : Pattern}

/-! ## What is found is a word -/

theorem front?_eq_some {t : Text} {n c : Nat} (h : p.front? t = some (n, c)) :
    ∃ w ∈ p.words, ∃ v, t = w ++ v ∧ n = w.length ∧ p.closing? v = some c := by
  obtain ⟨w, hw, hfront⟩ := List.exists_of_findSome?_eq_some h
  split at hfront
  · next hpre =>
    obtain ⟨v, rfl⟩ := List.isPrefixOf_iff_prefix.1 hpre
    rw [List.drop_left] at hfront
    obtain ⟨c', hc', heq⟩ := Option.map_eq_some_iff.1 hfront
    obtain ⟨rfl, rfl⟩ := Prod.mk.inj heq
    exact ⟨w, hw, v, rfl, rfl, hc'⟩
  · cases hfront

theorem scan_sound {pos skip : Nat} {afterWord : Bool} {t : Text} {at_ : Occurrence}
    (h : p.scan pos afterWord skip t = some at_) :
    ∃ u w v, t = u ++ (w ++ v) ∧ w ∈ p.words ∧ at_.start = pos + u.length ∧
      at_.stop = at_.start + w.length := by
  induction t generalizing pos skip afterWord with
  | nil => simp [scan] at h
  | cons b rest ih =>
    -- a word that is found further on
    have hlater : ∀ {aw skip}, p.scan (pos + 1) aw skip rest = some at_ →
        ∃ u w v, b :: rest = u ++ (w ++ v) ∧ w ∈ p.words ∧ at_.start = pos + u.length ∧
          at_.stop = at_.start + w.length := by
      intro aw skip hrest
      obtain ⟨u, w, v, rfl, hw, hstart, hstop⟩ := ih hrest
      refine ⟨b :: u, w, v, rfl, hw, ?_, hstop⟩
      rw [hstart, List.length_cons]
      omega
    cases skip with
    | succ skip => exact hlater (by rwa [scan] at h)
    | zero =>
      rw [scan] at h
      split at h
      · next n c hfront =>
        split at h
        · exact hlater h
        · obtain ⟨w, hw, v, htext, rfl, -⟩ := front?_eq_some hfront
          cases h
          exact ⟨[], w, v, htext, hw, rfl, rfl⟩
      · exact hlater h

/-! ## A single keyword is found where it first stands alone -/

section

variable {w : Text} (hwords : p.words = [w]) (hend : p.atEnd = true) (hne : w ≠ [])
  (hw : ∀ b ∈ w, Byte.isSeparator b = false)

theorem closing?_of_isSeparator {v : Text} (hend : p.atEnd = true)
    (hv : ∀ b ∈ v.head?, Byte.isSeparator b = true) : ∃ c, p.closing? v = some c := by
  cases v with
  | nil => simp [closing?, hend]
  | cons b v => simp [closing?, hv b rfl]

theorem isSeparator_of_closing? {v : Text} {c : Nat} (hc : p.closing? v = some c) :
    ∀ b ∈ v.head?, Byte.isSeparator b = true := by
  rcases closing?_cases hc with ⟨rfl, -, -⟩ | ⟨s, rest, rfl, hs, -⟩
  · simp
  · simpa using hs

theorem any_isWord_eq_false {last : Option UInt8} :
    last.any Byte.isWord = false ↔ ∀ b ∈ last, Byte.isWord b = false := by
  cases last <;> simp

include hwords hend in
theorem front?_single {v : Text} (hv : ∀ b ∈ v.head?, Byte.isSeparator b = true) :
    ∃ c, p.front? (w ++ v) = some (w.length, c) := by
  obtain ⟨c, hc⟩ := closing?_of_isSeparator hend hv
  exact ⟨c, by simp [front?, hwords, hc]⟩

include hw in
/-- A keyword with white space behind it leaves no room for another one that begins inside it. -/
theorem not_standsAlone_inside {pre v : Text} {c : Nat} (hc : p.closing? v = some c) {q : Nat}
    (hpos : pre.length < q) (hlt : q < pre.length + w.length + c) :
    ¬ StandsAlone w (pre ++ (w ++ v)) q := by
  rintro ⟨u, v', htext, rfl, -, -⟩
  obtain ⟨u', rfl⟩ : ∃ u', u = pre ++ u' := by
    have hprefix : pre <+: u ++ (w ++ v') := ⟨_, htext⟩
    exact (List.prefix_of_prefix_length_le hprefix (List.prefix_append u _)
      (Nat.le_of_lt hpos)).imp fun _ h => h.symm
  rw [List.length_append] at hpos hlt
  rw [List.append_assoc] at htext
  have hinside := List.append_cancel_left htext
  rcases closing?_cases hc with ⟨rfl, -, rfl⟩ | ⟨s, v, rfl, hs, rfl⟩
  · -- the other one would end behind the text
    have hlength := congrArg List.length hinside
    simp only [List.length_append, List.length_nil] at hlength
    omega
  · -- the other one would run over the white space
    have hbyte : (w ++ s :: v)[w.length]? = some s := by simp
    rw [hinside, List.getElem?_append_right (by omega),
      List.getElem?_append_left (by omega)] at hbyte
    exact absurd (hw s (List.mem_of_getElem? hbyte)) (by simp [hs])

include hwords hend hne hw in
/-- The search goes on from a place before which the keyword does not stand alone. -/
theorem scan_isFirst (pre t : Text) (skip : Nat)
    (hskip : ∀ q < pre.length + skip, ¬ StandsAlone w (pre ++ t) q) :
    IsFirst w (pre ++ t) (p.scan pre.length (pre.getLast?.any Byte.isWord) skip t) := by
  induction t generalizing pre skip with
  | nil =>
    rw [scan]
    rintro q ⟨u, v, htext, rfl, hu, hv⟩
    have hlength := congrArg List.length htext
    have hpos := List.length_pos_iff.2 hne
    simp only [List.append_nil, List.length_append] at hlength
    exact hskip _ (by omega) ⟨u, v, htext, rfl, hu, hv⟩
  | cons b rest ih =>
    have hstep : ∀ skip, (∀ q < pre.length + 1 + skip, ¬ StandsAlone w (pre ++ b :: rest) q) →
        IsFirst w (pre ++ b :: rest) (p.scan (pre.length + 1) (Byte.isWord b) skip rest) := by
      intro skip hskip
      have hrest := ih (pre ++ [b]) skip (by simpa using hskip)
      simpa using hrest
    cases skip with
    | succ skip =>
      rw [scan]
      exact hstep skip fun q hq => hskip q (by omega)
    | zero =>
      rw [scan]
      split
      · next n c hfront =>
        obtain ⟨w', hw', v, htext, rfl, hc⟩ := front?_eq_some hfront
        obtain rfl : w' = w := by simpa [hwords] using hw'
        split
        · next hafter =>
          refine hstep _ fun q hq => ?_
          rcases Nat.lt_trichotomy q pre.length with hlt | rfl | hgt
          · exact hskip q (by omega)
          · rintro ⟨u, v', htext', hlength, hu, -⟩
            obtain rfl : pre = u := (List.append_inj htext' hlength.symm).1
            exact absurd hafter (Bool.not_eq_true _ ▸ any_isWord_eq_false.2 hu)
          · rw [htext]
            have hpos := List.length_pos_iff.2 hne
            exact not_standsAlone_inside hw hc hgt (by omega)
        · next hafter =>
          refine ⟨⟨pre, v, htext ▸ rfl, rfl, ?_, ?_⟩, rfl, fun q hq => hskip q hq⟩
          · exact any_isWord_eq_false.1 (by simpa using hafter)
          · exact isSeparator_of_closing? hc
      · next hfront =>
        refine hstep 0 fun q hq => ?_
        rcases Nat.lt_or_eq_of_le (Nat.le_of_lt_succ hq) with hlt | rfl
        · exact hskip q hlt
        · rintro ⟨u, v, htext, hlength, -, hv⟩
          obtain ⟨rfl, hrest⟩ := List.append_inj htext hlength.symm
          obtain ⟨c, hc⟩ := front?_single hwords hend hv
          rw [← hrest, hfront] at hc
          cases hc

include hwords hend hne hw in
/-- **A keyword is found where it first stands alone.** -/
theorem find?_isFirst (hascii : ∀ b ∈ w, b < 0x80) (t : Text) : IsFirst w t (p.find? t) := by
  have hreplacement : p.hasReplacement = false := by
    simp only [hasReplacement, hwords, List.any_cons, List.any_nil, Bool.or_false]
    cases hincludes : Text.includes w (Utf8.encode replacementChar) with
    | false => rfl
    | true =>
      have hmem : (0xEF : UInt8) ∈ w := Text.mem_of_includes hincludes _ (by decide)
      exact absurd (hascii _ hmem) (by decide)
  rw [find?, hreplacement]
  exact scan_isFirst hwords hend hne hw [] t 0 fun q hq => absurd hq (Nat.not_lt_zero q)

end

end Pattern

end ModifierToggle.Keyword
