import Mathlib.Data.List.TakeWhile
import Mathlib.Tactic.Common
import ModifierToggle.Text.Cluster

set_option autoImplicit false

/-! # How far a cluster reaches

The rules for clusters are functions that say how many units of a sequence they take. All of them
look ahead only to decide whether to go on: a rule that stops before the end of a front of the
sequence takes the same units from that front alone, and the unit at which a rule stops is the last
one it looks at. `Reach` says so, and that no unit is taken that stalls. Rules are made of smaller
ones, one behind the other, and what `Reach` says is kept by that (`Reach.andThen`, `Reach.step`).
It is said of sequences up to a length, so that a rule that goes on by itself is one more step of
its own. -/

namespace ModifierToggle.Cluster

/-- A rule for taking units from the front of a sequence of up to `n` units. -/
structure Reach (n : Nat) (f : List CodeUnit → Nat) : Prop where
  le_length : ∀ us : List CodeUnit, us.length ≤ n → f us ≤ us.length
  /-- What follows the units taken has no say, unless they would go on there. -/
  front : ∀ us vs : List CodeUnit, (us ++ vs).length ≤ n → f (us ++ vs) ≤ us.length →
    f us = f (us ++ vs)
  /-- What follows the unit at which the rule stops has no say. -/
  stop : ∀ us vs : List CodeUnit, (us ++ vs).length ≤ n → f us < us.length → f (us ++ vs) = f us
  clear : ∀ us : List CodeUnit, us.length ≤ n → ∀ u ∈ us.take (f us), u.kind.stalls = false

namespace Reach

variable {n : Nat} {f g : List CodeUnit → Nat}

theorem zero : Reach n fun _ => 0 :=
  ⟨fun _ _ => Nat.zero_le _, fun _ _ _ _ => rfl, fun _ _ _ _ => rfl, fun us _ u hu => by simp at hu⟩

/-- There is nothing to take from the empty sequence. -/
theorem empty (h : f [] = 0) : Reach 0 f := by
  have hnil : ∀ us : List CodeUnit, us.length ≤ 0 → us = [] := fun us hus =>
    List.length_eq_zero_iff.1 (Nat.le_zero.1 hus)
  refine ⟨fun us hus => ?_, fun us vs hus _ => ?_, fun us vs hus _ => ?_, fun us hus u hu => ?_⟩
  · rw [hnil us hus, h]
    exact Nat.zero_le _
  · have hboth := hnil _ hus
    rw [hboth, (List.append_eq_nil_iff.1 hboth).1]
  · have hboth := hnil _ hus
    rw [hboth, (List.append_eq_nil_iff.1 hboth).1]
  · rw [hnil us hus] at hu
    simp at hu

theorem clear_add (hf : Reach n f) (hg : Reach n g) (us : List CodeUnit) (hus : us.length ≤ n) :
    ∀ u ∈ us.take (f us + g (us.drop (f us))), u.kind.stalls = false := by
  intro u hu
  rw [List.take_add] at hu
  rcases List.mem_append.1 hu with hu | hu
  · exact hf.clear us hus u hu
  · exact hg.clear _ (by rw [List.length_drop]; omega) u hu

/-- One rule behind the other. -/
theorem andThen (hf : Reach n f) (hg : Reach n g) :
    Reach n fun us => f us + g (us.drop (f us)) := by
  refine ⟨fun us hus => ?_, fun us vs hus h => ?_, fun us vs hus h => ?_, hf.clear_add hg⟩
  · have hfirst := hf.le_length us hus
    have hsecond := hg.le_length (us.drop (f us)) (by rw [List.length_drop]; omega)
    rw [List.length_drop] at hsecond
    omega
  · have hle : f (us ++ vs) ≤ us.length := by omega
    rw [List.drop_append_of_le_length hle] at h ⊢
    have hsecond := hg.front (us.drop (f (us ++ vs))) vs
      (by rw [List.length_append, List.length_drop]; rw [List.length_append] at hus; omega)
      (by rw [List.length_drop]; omega)
    rw [hf.front us vs hus hle, hsecond]
  · have hle : f us < us.length := by omega
    have hsecond := hg.stop (us.drop (f us)) vs
      (by rw [List.length_append, List.length_drop]; rw [List.length_append] at hus; omega)
      (by rw [List.length_drop]; omega)
    rw [hf.stop us vs hus hle, List.drop_append_of_le_length (Nat.le_of_lt hle), hsecond]

/-- One rule behind the other, or another rule if the first takes nothing. -/
theorem orElse {h : List CodeUnit → Nat} (hf : Reach n f) (hg : Reach n g) (hh : Reach n h) :
    Reach n fun us => if f us = 0 then h us else f us + g (us.drop (f us)) := by
  refine ⟨fun us hus => ?_, fun us vs hus hle => ?_, fun us vs hus hlt => ?_, fun us hus u hu => ?_⟩
  · split
    · exact hh.le_length us hus
    · exact (hf.andThen hg).le_length us hus
  · by_cases hzero : f (us ++ vs) = 0
    · rw [if_pos hzero] at hle ⊢
      rw [hf.front us vs hus (by omega), if_pos hzero, hh.front us vs hus hle]
    · rw [if_neg hzero] at hle
      have hboth := (hf.andThen hg).front us vs hus hle
      have hfirst := hf.front us vs hus (by omega)
      rw [if_neg hzero, if_neg (hfirst ▸ hzero)]
      exact hboth
  · by_cases hzero : f us = 0
    · rw [if_pos hzero] at hlt ⊢
      rw [hf.stop us vs hus (by omega), if_pos hzero, hh.stop us vs hus hlt]
    · rw [if_neg hzero] at hlt
      have hboth := (hf.andThen hg).stop us vs hus hlt
      have hfirst := hf.stop us vs hus (by omega)
      rw [if_neg hzero, if_neg (hfirst ▸ hzero)]
      exact hboth
  · split at hu
    · exact hh.clear us hus u hu
    · exact hf.clear_add hg us hus u hu

/-- A rule that takes the first unit if that is of the right kind, and then goes on by a rule for
    that kind, with one unit less. -/
theorem step (c : CodeUnit → Bool) (rule : CodeUnit → List CodeUnit → Nat) (hnil : f [] = 0)
    (hcons : ∀ u us, f (u :: us) = if c u then 1 + rule u us else 0)
    (hclear : ∀ u, c u = true → u.kind.stalls = false)
    (hrule : ∀ u, c u = true → Reach n (rule u)) : Reach (n + 1) f := by
  refine ⟨fun us hus => ?_, fun us vs hus h => ?_, fun us vs hus h => ?_, fun us hus v hv => ?_⟩
  · cases us with
    | nil =>
      rw [hnil]
      exact Nat.zero_le _
    | cons u us =>
      rw [hcons, List.length_cons]
      split
      · next hc =>
        have hle := (hrule u hc).le_length us (Nat.le_of_succ_le_succ hus)
        omega
      · exact Nat.zero_le _
  · cases us with
    | nil =>
      rw [hnil]
      exact (Nat.le_zero.1 h).symm
    | cons u us =>
      rw [List.cons_append, hcons] at h ⊢
      rw [hcons]
      split
      · next hc =>
        rw [if_pos hc, List.length_cons] at h
        rw [(hrule u hc).front us vs (Nat.le_of_succ_le_succ hus) (by omega)]
      · rfl
  · cases us with
    | nil => exact absurd h (Nat.not_lt_zero _)
    | cons u us =>
      rw [hcons] at h
      rw [List.cons_append, hcons, hcons]
      split
      · next hc =>
        rw [if_pos hc, List.length_cons] at h
        rw [(hrule u hc).stop us vs (Nat.le_of_succ_le_succ hus) (by omega)]
      · rfl
  · cases us with
    | nil => simp at hv
    | cons u us =>
      rw [hcons] at hv
      split at hv
      · next hc =>
        rw [Nat.add_comm, List.take_succ_cons] at hv
        rcases List.mem_cons.1 hv with rfl | hv
        · exact hclear v hc
        · exact (hrule u hc).clear us (Nat.le_of_succ_le_succ hus) v hv
      · simp at hv

/-- A rule stops at a unit that stalls, whatever follows. -/
theorem append_of_stalls (hf : Reach n f) {us vs : List CodeUnit} {v : CodeUnit}
    (hlength : (us ++ v :: vs).length ≤ n) (hv : v.kind.stalls = true) :
    f (us ++ v :: vs) = f us := by
  refine (hf.front us (v :: vs) hlength (Nat.le_of_not_lt fun hlt => ?_)).symm
  have htaken : v ∈ (us ++ v :: vs).take (f (us ++ v :: vs)) := by
    obtain ⟨k, hk⟩ := Nat.exists_eq_add_of_lt hlt
    rw [hk, Nat.add_assoc, List.take_length_add_append, List.take_succ_cons]
    exact List.mem_append_right _ List.mem_cons_self
  rw [hf.clear _ hlength v htaken] at hv
  cases hv

/-- A step by a rule that holds for all lengths. -/
theorem steps (c : CodeUnit → Bool) (rule : CodeUnit → List CodeUnit → Nat) (hnil : f [] = 0)
    (hcons : ∀ u us, f (u :: us) = if c u then 1 + rule u us else 0)
    (hclear : ∀ u, c u = true → u.kind.stalls = false)
    (hrule : ∀ m u, c u = true → Reach m (rule u)) : Reach n f := by
  cases n with
  | zero => exact .empty hnil
  | succ n => exact .step c rule hnil hcons hclear (hrule n)

end Reach

/-! ## The rules -/

variable {n : Nat}

theorem reach_run {k : Class} (h : k.stalls = false) : Reach n (run k) := by
  induction n with
  | zero => exact .empty rfl
  | succ n ih =>
    refine .step (fun u => u.kind == k) (fun _ => run k) rfl (fun u us => ?_)
      (fun u hu => beq_iff_eq.1 hu ▸ h) fun _ _ => ih
    by_cases hk : u.kind = k <;> simp [run, hk, Nat.add_comm]

theorem stalls_of_isMark {u : CodeUnit} (h : u.kind.isMark = true) : u.kind.stalls = false := by
  rcases u with ⟨kind, size⟩
  cases kind <;> simp_all [Class.isMark, Class.stalls]

/-- The marks at the front. -/
def marks (us : List CodeUnit) : Nat := (us.takeWhile (·.kind.isMark)).length

theorem reach_marks : Reach n marks := by
  induction n with
  | zero => exact .empty rfl
  | succ n ih =>
    refine .step (·.kind.isMark) (fun _ => marks) rfl (fun u us => ?_)
      (fun u => stalls_of_isMark) fun _ _ => ih
    cases hu : u.kind.isMark <;> simp [marks, hu, Nat.add_comm]

/-- Take the first unit if it is of a kind. -/
def onlyIf (k : Class) (us : List CodeUnit) : Nat :=
  (us.head?.map fun u => if u.kind = k then 1 else 0).getD 0

theorem reach_onlyIf {k : Class} (h : k.stalls = false) : Reach n (onlyIf k) := by
  refine .steps (fun u => u.kind == k) (fun _ _ => 0) rfl (fun u us => ?_)
    (fun u hu => beq_iff_eq.1 hu ▸ h) fun _ _ _ => .zero
  by_cases hk : u.kind = k <;> simp [onlyIf, hk]

/-- How marks go on: behind a joiner they take a pictograph along. -/
def extensionAfter (u : CodeUnit) (us : List CodeUnit) : Nat :=
  if u.kind = .joiner then onlyIf .pictograph us + extension (us.drop (onlyIf .pictograph us))
  else extension us

theorem extension_cons (u : CodeUnit) (us : List CodeUnit) :
    extension (u :: us) = if u.kind.isMark then 1 + extensionAfter u us else 0 := by
  rcases u with ⟨kind, size⟩
  by_cases hjoiner : kind = .joiner
  · subst hjoiner
    rcases us with _ | ⟨⟨kind', size'⟩, us⟩
    · rfl
    · cases kind' <;> simp [extensionAfter, extension, onlyIf, Class.isMark] <;> omega
  · cases kind <;> simp_all [extensionAfter, extension, Class.isMark, Nat.add_comm]

theorem reach_extension : Reach n extension := by
  induction n with
  | zero => exact .empty rfl
  | succ n ih =>
    refine .step (·.kind.isMark) extensionAfter rfl extension_cons (fun u => stalls_of_isMark)
      fun u _ => ?_
    unfold extensionAfter
    split
    · exact (reach_onlyIf rfl).andThen ih
    · exact ih

/-! ## Hangul syllables -/

/-- The vowels and the closing consonants of a syllable. -/
def vowels (us : List CodeUnit) : Nat := run .hangulV us + run .hangulT (us.drop (run .hangulV us))

theorem reach_vowels : Reach n vowels := (reach_run rfl).andThen (reach_run rfl)

/-- What follows the opening consonants of a syllable. -/
def rhymeAfter (u : CodeUnit) (us : List CodeUnit) : Nat :=
  match u.kind with
  | .hangulLV =>
    if run .hangulV us = 0 then 0
    else run .hangulV us + run .hangulT (us.drop (run .hangulV us))
  | .hangulV => vowels us
  | _ => run .hangulT us

/-- The rest of a syllable behind its opening consonants. -/
def rhyme : List CodeUnit → Nat
  | [] => 0
  | u :: us =>
    if u.kind = .hangulLV ∨ u.kind = .hangulLVT ∨ u.kind = .hangulV then 1 + rhymeAfter u us else 0

theorem reach_rhyme : Reach n rhyme := by
  refine .steps (fun u => u.kind = .hangulLV ∨ u.kind = .hangulLVT ∨ u.kind = .hangulV) rhymeAfter
    rfl (fun u us => ?_) (fun u hu => ?_) fun m u _ => ?_
  · simp [rhyme]
  · rcases of_decide_eq_true hu with hu | hu | hu <;> rw [hu] <;> rfl
  · unfold rhymeAfter
    split
    · exact (reach_run rfl).orElse (reach_run rfl) .zero
    · exact reach_vowels
    · exact reach_run rfl

/-- How a syllable goes on behind its first unit. -/
def syllableAfter (u : CodeUnit) (us : List CodeUnit) : Nat :=
  match u.kind with
  | .hangulL => run .hangulL us + rhyme (us.drop (run .hangulL us))
  | .hangulLV | .hangulV => vowels us
  | _ => run .hangulT us

/-- The classes of units that syllables are made of. -/
def Class.isHangul : Class → Bool
  | .hangulL | .hangulV | .hangulT | .hangulLV | .hangulLVT => true
  | _ => false

theorem syllable_cons (u : CodeUnit) (us : List CodeUnit) :
    syllable (u :: us) = if u.kind.isHangul then 1 + syllableAfter u us else 0 := by
  rcases u with ⟨kind, size⟩
  cases kind with
  | hangulL =>
    simp only [syllable, syllableAfter, Class.isHangul, if_true, Nat.add_sub_cancel]
    rcases us.drop (run .hangulL us) with _ | ⟨⟨kind', size'⟩, tail⟩
    · simp [rhyme, Nat.add_comm]
    · cases kind' with
      | hangulLV =>
        simp only [rhyme, rhymeAfter, beq_iff_eq, true_or, if_true]
        split <;> omega
      | _ =>
        simp [rhyme, rhymeAfter, vowels]
        omega
  | _ => simp [syllable, syllableAfter, Class.isHangul, vowels, Nat.add_assoc]

theorem stalls_of_isHangul {u : CodeUnit} (h : u.kind.isHangul = true) :
    u.kind.stalls = false := by
  rcases u with ⟨kind, size⟩
  cases kind <;> simp_all [Class.isHangul, Class.stalls]

theorem reach_syllable : Reach n syllable := by
  refine .steps (·.kind.isHangul) syllableAfter rfl syllable_cons (fun u => stalls_of_isHangul)
    fun m u _ => ?_
  unfold syllableAfter
  split
  · exact (reach_run rfl).andThen reach_rhyme
  · exact reach_vowels
  · exact reach_vowels
  · exact reach_run rfl

/-! ## Whole clusters -/

/-- How a cluster goes on behind its first unit, which is not part of a syllable. -/
def coreAfter (u : CodeUnit) (us : List CodeUnit) : Nat :=
  match u.kind with
  | .pictograph => extension us
  | .regional => onlyIf .regional us + extension (us.drop (onlyIf .regional us))
  | _ => marks us

/-- The classes of units that a cluster without a syllable starts with. -/
def Class.isBase : Class → Bool
  | .pictograph | .regional | .joiner | .extend | .spacingMark | .other => true
  | _ => false

/-- The cluster at the front, if it starts with a unit that is not part of a syllable. -/
def plainCore : List CodeUnit → Nat
  | [] => 0
  | u :: us => if u.kind.isBase then 1 + coreAfter u us else 0

theorem reach_plainCore : Reach n plainCore := by
  refine .steps (·.kind.isBase) coreAfter rfl (fun _ _ => rfl) (fun u hu => ?_) fun m u _ => ?_
  · rcases u with ⟨kind, size⟩
    cases kind <;> simp_all [Class.isBase, Class.stalls]
  · unfold coreAfter
    split
    · exact reach_extension
    · exact (reach_onlyIf rfl).andThen reach_extension
    · exact reach_marks

/-- A cluster is a syllable with marks, or starts with another unit. -/
theorem core_eq (us : List CodeUnit) :
    core us = if syllable us = 0 then plainCore us
      else syllable us + extension (us.drop (syllable us)) := by
  rcases us with _ | ⟨⟨kind, size⟩, us⟩
  · rfl
  · rw [syllable_cons]
    cases kind with
    | regional =>
      rcases us with _ | ⟨⟨kind', size'⟩, us⟩
      · rfl
      · cases kind' with
        | regional =>
          simp [core, plainCore, coreAfter, onlyIf, Class.isHangul, Class.isBase]
          omega
        | _ => simp [core, plainCore, coreAfter, onlyIf, Class.isHangul, Class.isBase]
    | _ =>
      simp [core, plainCore, coreAfter, marks, Class.isHangul, Class.isBase, syllable_cons,
        List.drop_succ_cons, Nat.add_comm 1]

theorem reach_core : Reach n core := by
  rw [funext core_eq]
  exact reach_syllable.orElse reach_extension reach_plainCore

/-- The cluster behind a unit that attaches to the next, which may be followed by others. -/
def prepended (us : List CodeUnit) : Nat := run .prepend us + core (us.drop (run .prepend us))

theorem reach_prepended : Reach n prepended := (reach_run rfl).andThen reach_core

theorem extent_cons (u : CodeUnit) (us : List CodeUnit) :
    extent (u :: us) = if u.kind = .carriageReturn then 1 + onlyIf .lineFeed us
      else if u.kind = .prepend then 1 + prepended us
      else max 1 (core (u :: us)) := by
  rcases u with ⟨kind, size⟩
  by_cases hreturn : kind = .carriageReturn
  · subst hreturn
    rcases us with _ | ⟨⟨kind', size'⟩, us⟩
    · rfl
    · cases kind' <;> simp [extent, core, onlyIf]
  · cases kind <;> simp_all [extent, prepended, Nat.add_assoc]

theorem extent_pos {us : List CodeUnit} (h : us ≠ []) : 0 < extent us := by
  obtain ⟨u, us, rfl⟩ := List.exists_cons_of_ne_nil h
  rw [extent_cons]
  split
  · omega
  · split <;> omega

theorem extent_le_length (us : List CodeUnit) : extent us ≤ us.length := by
  cases us with
  | nil => exact Nat.le_refl _
  | cons u us =>
    rw [extent_cons, List.length_cons]
    split
    · rcases us with _ | ⟨v, us⟩
      · exact Nat.le_refl _
      · by_cases hv : v.kind = .lineFeed <;> simp [onlyIf, hv]
    · split
      · have hle := reach_prepended.le_length us (Nat.le_refl _)
        omega
      · have hle := reach_core.le_length (u :: us) (Nat.le_refl _)
        rw [List.length_cons] at hle
        omega

/-- **What follows a cluster has no say in it,** unless the cluster would go on there. -/
theorem extent_front {us vs : List CodeUnit} (h : extent (us ++ vs) ≤ us.length) :
    extent us = extent (us ++ vs) := by
  cases us with
  | nil => exact (Nat.le_zero.1 h).symm
  | cons u us =>
    rw [List.cons_append, extent_cons] at h ⊢
    rw [extent_cons]
    rw [List.length_cons] at h
    by_cases hreturn : u.kind = .carriageReturn
    · rw [if_pos hreturn] at h ⊢
      rw [if_pos hreturn]
      cases us with
      | nil =>
        -- a line feed behind the front would be taken
        have hnone : onlyIf .lineFeed ([] ++ vs) = 0 := by
          rw [List.length_nil] at h
          omega
        rw [hnone]
        rfl
      | cons v us => rfl
    · rw [if_neg hreturn] at h ⊢
      rw [if_neg hreturn]
      by_cases hprepend : u.kind = .prepend
      · rw [if_pos hprepend] at h ⊢
        rw [if_pos hprepend, reach_prepended.front us vs (Nat.le_refl _) (by omega)]
      · rw [if_neg hprepend] at h ⊢
        have hcore := reach_core.front (u :: us) vs (Nat.le_refl _)
        rw [List.cons_append, List.length_cons] at hcore
        rw [if_neg hprepend, hcore (by omega)]

/-- **The unit at which a cluster ends is the last one that has a say in it.** -/
theorem extent_stop {us vs : List CodeUnit} (h : extent us < us.length) :
    extent (us ++ vs) = extent us := by
  cases us with
  | nil => exact absurd h (Nat.not_lt_zero _)
  | cons u us =>
    rw [extent_cons, List.length_cons] at h
    rw [List.cons_append, extent_cons, extent_cons]
    by_cases hreturn : u.kind = .carriageReturn
    · rw [if_pos hreturn] at h ⊢
      rw [if_pos hreturn]
      cases us with
      | nil => exact absurd h (by simp)
      | cons v us => rfl
    · rw [if_neg hreturn] at h ⊢
      rw [if_neg hreturn]
      by_cases hprepend : u.kind = .prepend
      · rw [if_pos hprepend] at h ⊢
        rw [if_pos hprepend, reach_prepended.stop us vs (Nat.le_refl _) (by omega)]
      · rw [if_neg hprepend] at h ⊢
        have hcore := reach_core.stop (u :: us) vs (Nat.le_refl _)
        rw [List.cons_append, List.length_cons] at hcore
        rw [if_neg hprepend, hcore (by omega)]

/-- A broken unit is in no cluster but its own. -/
theorem extent_append_broken {us vs : List CodeUnit} {v : CodeUnit} (hus : us ≠ [])
    (hv : v.kind = .broken) : extent (us ++ v :: vs) = extent us := by
  have hstalls : v.kind.stalls = true := by rw [hv]; rfl
  obtain ⟨u, us, rfl⟩ := List.exists_cons_of_ne_nil hus
  rw [List.cons_append, extent_cons, extent_cons]
  by_cases hreturn : u.kind = .carriageReturn
  · rw [if_pos hreturn, if_pos hreturn]
    cases us with
    | nil => simp [onlyIf, hv]
    | cons w us => rfl
  · rw [if_neg hreturn, if_neg hreturn]
    split
    · rw [reach_prepended.append_of_stalls (Nat.le_refl _) hstalls]
    · have hcore : core (u :: us ++ v :: vs) = core (u :: us) :=
        reach_core.append_of_stalls (Nat.le_refl _) hstalls
      rw [List.cons_append] at hcore
      rw [hcore]

end ModifierToggle.Cluster
