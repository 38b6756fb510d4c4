import ModifierToggle.LineDiff.Basic

set_option autoImplicit false

/-! # The two sides of a difference

The lines that are kept or deleted make up the old list, those that are kept or inserted the new
one: nothing is lost between the hunks and nothing is made up, whatever way they are found
(`LineDiff.onSide_diff`). Each step of the search is shown to keep both sides as they are, and both
of them at once: `Side` stands for the old list or the new one throughout.

Where the two searches meet in the middle does not matter for this, as the lists may be cut
anywhere. What is kept does matter, and is always found by comparing the lists. -/

namespace ModifierToggle

/-- The old list of a difference, or the new one. -/
inductive Side where
  | old
  | new
  deriving Repr, DecidableEq

namespace Side

/-- Of two values, the one for a side. -/
def of {β : Type} : Side → β → β → β
  | .old, a, _ => a
  | .new, _, b => b

/-- Whether lines that change in some way are on a side. -/
def has : Side → Change → Bool
  | _, .keep => true
  | .old, c => c == .delete
  | .new, c => c == .insert

theorem has_keep (s : Side) : s.has .keep = true := by
  cases s <;> rfl

variable {α β : Type}

@[simp]
theorem of_self (s : Side) (a : β) : s.of a a = a := by
  cases s <;> rfl

@[simp]
theorem of_append (s : Side) (as as' bs bs' : List α) :
    s.of (as ++ as') (bs ++ bs') = s.of as bs ++ s.of as' bs' := by
  cases s <;> rfl

end Side

namespace LineDiff

variable {α : Type}

/-- The lines of some hunks that are on a side. -/
def onSide (s : Side) (hunks : List (Hunk α)) : List α :=
  hunks.flatMap fun h => if s.has h.change then h.lines else []

@[simp]
theorem onSide_nil (s : Side) : onSide s ([] : List (Hunk α)) = [] := rfl

@[simp]
theorem onSide_append (s : Side) (hs hs' : List (Hunk α)) :
    onSide s (hs ++ hs') = onSide s hs ++ onSide s hs' := List.flatMap_append

theorem onSide_cons (s : Side) (h : Hunk α) (hs : List (Hunk α)) :
    onSide s (h :: hs) = (if s.has h.change then h.lines else []) ++ onSide s hs := rfl

@[simp]
theorem onSide_keep (s : Side) (ls : List α) (hs : List (Hunk α)) :
    onSide s (⟨.keep, ls⟩ :: hs) = ls ++ onSide s hs := by
  cases s <;> rfl

@[simp]
theorem onSide_delete (s : Side) (ls : List α) (hs : List (Hunk α)) :
    onSide s (⟨.delete, ls⟩ :: hs) = s.of ls [] ++ onSide s hs := by
  cases s <;> rfl

@[simp]
theorem onSide_insert (s : Side) (ls : List α) (hs : List (Hunk α)) :
    onSide s (⟨.insert, ls⟩ :: hs) = s.of [] ls ++ onSide s hs := by
  cases s <;> rfl

theorem onSide_edit (s : Side) (as bs : List α) :
    onSide s [⟨.delete, as⟩, ⟨.insert, bs⟩] = s.of as bs := by
  cases s <;> simp [Side.of]

theorem onSide_keepMore (s : Side) (lines : List α) (done : List (Hunk α)) :
    onSide s (keepMore lines done).reverse = onSide s done.reverse ++ lines := by
  unfold keepMore
  split
  · simp
  · simp

theorem onSide_optional (s : Side) (ls : List α) :
    onSide s (if ls.isEmpty then [] else [⟨.keep, ls⟩]) = ls := by
  split
  · next hempty => simp [List.isEmpty_iff.1 hempty]
  · simp

/-! ## Cutting a list -/

/-- A list is what stands before two places, between them and behind them. -/
theorem eq_append_between (as : List α) {i j : Nat} (h : i ≤ j) :
    as = as.take i ++ (as.take j).drop i ++ as.drop j := by
  have hfront : as.take i ++ (as.take j).drop i = as.take j := by
    have hcut := List.take_append_drop i (as.take j)
    rwa [List.take_take, Nat.min_eq_left h] at hcut
  rw [hfront, List.take_append_drop]

/-- What stands around a place is the end of what is before it and the start of what is behind. -/
theorem drop_take_around {as : List α} {i : Nat} (hi : i ≤ as.length) (back forth : Nat) :
    (as.take (i + forth)).drop (i - back)
      = (as.take i).drop ((as.take i).length - back) ++ (as.drop i).take forth := by
  rw [List.take_add, List.length_take_of_le hi, List.drop_append_of_le_length]
  rw [List.length_take_of_le hi]
  omega

/-! ## Common parts -/

variable [DecidableEq α]

theorem take_commonLength (as bs : List α) :
    as.take (commonLength as bs) = bs.take (commonLength as bs) := by
  fun_induction commonLength as bs with
  | case1 a as bs ih => simp [ih]
  | case2 => simp
  | case3 => simp

theorem drop_commonEndLength (as bs : List α) :
    as.drop (as.length - commonEndLength as bs) = bs.drop (bs.length - commonEndLength as bs) := by
  have h := take_commonLength as.reverse bs.reverse
  rwa [List.take_reverse, List.take_reverse, List.reverse_inj] at h

theorem commonStart_append (as bs : List α) :
    as.take (commonLength as bs) ++ bs.drop (commonLength as bs) = bs := by
  rw [take_commonLength, List.take_append_drop]

theorem append_commonEnd (as bs : List α) :
    bs.take (bs.length - commonEndLength as bs) ++ as.drop (as.length - commonEndLength as bs)
      = bs := by
  rw [drop_commonEndLength, List.take_append_drop]

/-- Where a list is found in another one, it stands there. -/
theorem eq_append_of_find? {needle as : List α} {i : Nat} (h : find? needle as = some i) :
    as = as.take i ++ needle ++ as.drop (i + needle.length) := by
  induction as generalizing i with
  | nil =>
    rw [find?] at h
    split at h
    · next hempty => simp [List.isEmpty_iff.1 hempty]
    · cases h
  | cons a as ih =>
    rw [find?] at h
    split at h
    · next hfront =>
      cases h
      obtain ⟨rest, hrest⟩ := List.isPrefixOf_iff_prefix.1 hfront
      simp [← hrest]
    · obtain ⟨j, hj, rfl⟩ := Option.map_eq_some_iff.1 h
      have hrest := ih hj
      rw [List.take_succ_cons, Nat.add_right_comm, List.drop_succ_cons, List.cons_append,
        List.cons_append, ← hrest]

/-! ## A large common middle -/

/-- Both lists are put together of their parts and the run they share. -/
structure Middle.Cuts (m : Middle α) (long short : List α) : Prop where
  long : long = m.longBefore ++ m.common ++ m.longAfter
  short : short = m.shortBefore ++ m.common ++ m.shortAfter

theorem middleAround_cuts {long short : List α} {i j : Nat} (hi : i ≤ long.length)
    (hj : j ≤ short.length) : (middleAround long short i j).Cuts long short := by
  have hcommon : (long.take (i + commonLength (long.drop i) (short.drop j))).drop
        (i - commonEndLength (long.take i) (short.take j))
      = (short.take (j + commonLength (long.drop i) (short.drop j))).drop
        (j - commonEndLength (long.take i) (short.take j)) := by
    rw [drop_take_around hi, drop_take_around hj, drop_commonEndLength, take_commonLength]
  constructor
  · show long = _ ++ (short.take _).drop _ ++ _
    rw [← hcommon]
    exact eq_append_between long (by omega)
  · exact eq_append_between short (by omega)

theorem middleAt?_cuts {long short : List α} {i : Nat} (hi : i ≤ long.length) {m : Middle α}
    (h : middleAt? long short i = some m) : m.Cuts long short := by
  unfold middleAt? at h
  obtain ⟨hbest, -⟩ := Option.filter_eq_some_iff.1 h
  -- The best run so far is always one around a place of the shorter list.
  refine List.foldlRecOn (motive := fun best => ∀ b, best = some b → b.Cuts long short)
    _ _ (fun b hb => by cases hb) ?_ m hbest
  intro best hcuts j hj b hb
  have hplace : j ≤ short.length := by
    have hrange := List.mem_range.1 (List.mem_filter.1 hj).1
    omega
  have haround := middleAround_cuts hi hplace
  cases best with
  | none =>
    simp only at hb
    split at hb
    · cases hb
    · cases hb
      exact haround
  | some b' =>
    simp only at hb
    split at hb
    · cases hb
      exact haround
    · exact hcuts b hb

theorem middle?_cuts {long short : List α} {m : Middle α} (h : middle? long short = some m) :
    m.Cuts long short := by
  unfold middle? at h
  split at h
  · cases h
  · next hlength =>
    have hfirst : (long.length + 3) / 4 ≤ long.length := by
      simp at hlength
      omega
    have hsecond : (long.length + 1) / 2 ≤ long.length := by
      simp at hlength
      omega
    simp only at h
    split at h
    · next hm => exact middleAt?_cuts hsecond h
    · next hm => exact middleAt?_cuts hfirst h
    · next m₁ m₂ hm₁ hm₂ =>
      cases h
      split
      · exact middleAt?_cuts hfirst hm₁
      · exact middleAt?_cuts hsecond hm₂

/-! ## Tidying up -/

/-- What a deletion and an insertion start or end with alike is kept, and both sides stay as they
    are. -/
theorem onSide_settle (s : Side) (done : List (Hunk α)) (deleted inserted ls : List α) :
    let n := commonLength inserted deleted
    let deleted' := deleted.drop n
    let inserted' := inserted.drop n
    let m := commonEndLength inserted' deleted'
    onSide s (⟨.keep, inserted'.drop (inserted'.length - m) ++ ls⟩
        :: ⟨.insert, inserted'.take (inserted'.length - m)⟩
        :: ⟨.delete, deleted'.take (deleted'.length - m)⟩
        :: if n = 0 then done else keepMore (inserted.take n) done).reverse
      = onSide s done.reverse ++ s.of deleted inserted ++ ls := by
  intro n deleted' inserted' m
  have hstart : onSide s (if n = 0 then done else keepMore (inserted.take n) done).reverse
      = onSide s done.reverse ++ inserted.take n := by
    split
    · next hn => simp [hn]
    · exact onSide_keepMore s _ done
  have hdeleted : inserted.take n ++ deleted'.take (deleted'.length - m)
      ++ inserted'.drop (inserted'.length - m) = deleted := by
    rw [List.append_assoc, append_commonEnd, commonStart_append]
  have hinserted : inserted.take n ++ inserted'.take (inserted'.length - m)
      ++ inserted'.drop (inserted'.length - m) = inserted := by
    rw [List.append_assoc, List.take_append_drop, List.take_append_drop]
  simp only [List.reverse_cons, onSide_append, hstart, onSide_keep, onSide_insert, onSide_delete,
    onSide_nil]
  cases s with
  | old => simpa [Side.of] using congrArg (onSide .old done.reverse ++ · ++ ls) hdeleted
  | new =>
    simpa [Side.of, - List.take_append_drop]
      using congrArg (onSide .new done.reverse ++ · ++ ls) hinserted

/-- A kept hunk settles the edits before it: they are added to the hunks that are finished. -/
theorem joinFrom_keep (done : List (Hunk α)) (deletes inserts : List (List α)) (ls : List α)
    (rest : List (Hunk α)) :
    ∃ done', joinFrom done deletes inserts (⟨.keep, ls⟩ :: rest) = joinFrom done' [] [] rest ∧
      ∀ s : Side, onSide s done'.reverse
        = onSide s done.reverse ++ s.of deletes.flatten inserts.flatten ++ ls := by
  cases deletes with
  | nil =>
    cases inserts with
    | nil => exact ⟨_, rfl, fun s => by simp [onSide_keepMore]⟩
    | cons => exact ⟨_, rfl, fun s => by simp⟩
  | cons =>
    cases inserts with
    | nil => exact ⟨_, rfl, fun s => by simp⟩
    | cons => exact ⟨_, rfl, fun s => onSide_settle s done _ _ ls⟩

/-- Joining hunks keeps both sides, as long as a kept hunk comes last. -/
theorem onSide_joinFrom (s : Side) (hunks done : List (Hunk α)) (deletes inserts : List (List α))
    (ls : List α) :
    onSide s (joinFrom done deletes inserts (hunks ++ [⟨.keep, ls⟩])).reverse
      = onSide s done.reverse ++ s.of deletes.flatten inserts.flatten ++ onSide s hunks ++ ls := by
  induction hunks generalizing done deletes inserts with
  | nil =>
    obtain ⟨done', hjoin, hdone'⟩ := joinFrom_keep done deletes inserts ls []
    rw [List.nil_append, hjoin, joinFrom, hdone']
    simp
  | cons h hunks ih =>
    obtain ⟨change, lines⟩ := h
    cases change with
    | keep =>
      obtain ⟨done', hjoin, hdone'⟩ := joinFrom_keep done deletes inserts lines _
      rw [List.cons_append, hjoin, ih, hdone']
      simp
    | delete =>
      rw [List.cons_append, joinFrom, ih]
      cases s <;> simp [Side.of]
    | insert =>
      rw [List.cons_append, joinFrom, ih]
      cases s <;> simp [Side.of]

theorem onSide_join (s : Side) (hunks : List (Hunk α)) :
    onSide s (join hunks) = onSide s hunks := by
  have hjoined := onSide_joinFrom s hunks [] [] [] []
  simp only [List.reverse_nil, onSide_nil, List.flatten_nil, Side.of_self, List.nil_append,
    List.append_nil] at hjoined
  unfold join
  rw [← hjoined]
  split
  · next last done hlast =>
    rw [hlast]
    split
    · next hempty =>
      simp [onSide_cons, List.isEmpty_iff.1 hempty]
    · rfl
  · next hnil =>
    rw [hnil]
    rfl

theorem onSide_slideEdits (s : Side) (fuel : Nat) (hunks : List (Hunk α)) :
    onSide s (slideEdits fuel hunks).1 = onSide s hunks := by
  fun_induction slideEdits fuel hunks with
  | case1 fuel p c n rest hkeep hend c' ih =>
    obtain ⟨hp, hn⟩ : p.change = .keep ∧ n.change = .keep := by simpa using hkeep
    obtain ⟨front, hfront⟩ := List.isSuffixOf_iff_suffix.1 hend
    have hrest : c.lines.take (c.lines.length - p.lines.length) = front := by simp [← hfront]
    rw [onSide_cons, ih]
    simp only [onSide_cons, c', hrest, hp, hn, Side.has_keep, if_true]
    cases s.has c.change <;> simp [← hfront]
  | case2 fuel p c n rest hkeep hend hstart p' c' ih =>
    obtain ⟨hp, hn⟩ : p.change = .keep ∧ n.change = .keep := by simpa using hkeep
    obtain ⟨back, hback⟩ := List.isPrefixOf_iff_prefix.1 hstart
    have hrest : c.lines.drop n.lines.length = back := by simp [← hback]
    rw [onSide_cons, ih]
    simp only [onSide_cons, p', c', hrest, hp, hn, Side.has_keep, if_true]
    cases s.has c.change <;> simp [← hback]
  | case3 fuel p c n rest hkeep hend hstart hunks moved hslide ih =>
    rw [hslide] at ih
    rw [onSide_cons, onSide_cons, ih]
  | case4 fuel p c n rest hkeep hunks moved hslide ih =>
    rw [hslide] at ih
    rw [onSide_cons, onSide_cons, ih]
  | case5 => rfl

theorem onSide_tidy (s : Side) (fuel : Nat) (hunks : List (Hunk α)) :
    onSide s (tidy fuel hunks) = onSide s hunks := by
  induction fuel generalizing hunks with
  | zero => rfl
  | succ fuel ih =>
    rw [tidy]
    simp only
    split
    · rw [ih, onSide_slideEdits, onSide_join]
    · rw [onSide_slideEdits, onSide_join]

/-! ## Putting it together -/

theorem onSide_hunksOf_succ {fuel : Nat}
    (ih : ∀ (s : Side) (as bs : List α), onSide s (hunksBetween fuel as bs) = s.of as bs)
    (s : Side) (as bs : List α) : onSide s (hunksOf (fuel + 1) as bs) = s.of as bs := by
  rw [hunksOf]
  split
  · next hsame => rw [hsame, onSide_optional, Side.of_self]
  · simp only [onSide_tidy, onSide_append, onSide_optional, ih]
    rw [List.append_assoc]
    cases s with
    | old =>
      simp only [Side.of, List.take_append_drop]
    | new =>
      simp only [Side.of, append_commonEnd, commonStart_append]

theorem onSide_hunksBetween_succ {fuel : Nat}
    (ih : ∀ (s : Side) (as bs : List α), onSide s (hunksOf fuel as bs) = s.of as bs)
    (s : Side) (as bs : List α) : onSide s (hunksBetween (fuel + 1) as bs) = s.of as bs := by
  rw [hunksBetween]
  split
  · next hempty => simp [List.isEmpty_iff.1 hempty]
  split
  · next hempty => simp [List.isEmpty_iff.1 hempty]
  have hmeeting : ∀ x y, onSide s (hunksOf fuel (as.take x) (bs.take y)
      ++ hunksOf fuel (as.drop x) (bs.drop y)) = s.of as bs := by
    intro x y
    rw [onSide_append, ih, ih, ← Side.of_append, List.take_append_drop, List.take_append_drop]
  by_cases hshrinks : bs.length < as.length
  · simp only [hshrinks, if_true]
    split
    · next i hfind =>
      have hlong := eq_append_of_find? hfind
      cases s with
      | old => simpa [Side.of] using hlong.symm
      | new => simp [Side.of]
    split
    · exact onSide_edit s as bs
    split
    · next m hm =>
      have hcuts := middle?_cuts hm
      rw [hcuts.long, hcuts.short, onSide_append, onSide_keep, ih, ih]
      simp
    split
    · exact hmeeting _ _
    · exact onSide_edit s as bs
  · simp only [hshrinks, if_false]
    split
    · next i hfind =>
      have hlong := eq_append_of_find? hfind
      cases s with
      | old => simp [Side.of]
      | new => simpa [Side.of] using hlong.symm
    split
    · exact onSide_edit s as bs
    split
    · next m hm =>
      have hcuts := middle?_cuts hm
      rw [hcuts.long, hcuts.short, onSide_append, onSide_keep, ih, ih]
      simp
    split
    · exact hmeeting _ _
    · exact onSide_edit s as bs

theorem onSide_hunks (fuel : Nat) :
    (∀ (s : Side) (as bs : List α), onSide s (hunksOf fuel as bs) = s.of as bs) ∧
      ∀ (s : Side) (as bs : List α), onSide s (hunksBetween fuel as bs) = s.of as bs := by
  induction fuel with
  | zero => exact ⟨fun s as bs => onSide_edit s as bs, fun s as bs => onSide_edit s as bs⟩
  | succ fuel ih => exact ⟨onSide_hunksOf_succ ih.2, onSide_hunksBetween_succ ih.1⟩

/-- **A difference accounts for both lists.** What is kept or deleted is the old list, and what is
    kept or inserted the new one. -/
theorem onSide_diff (s : Side) (as bs : List α) : onSide s (diff as bs) = s.of as bs :=
  (onSide_hunks _).1 s as bs

end LineDiff

end ModifierToggle
