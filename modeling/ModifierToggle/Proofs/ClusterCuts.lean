import ModifierToggle.Proofs.ClusterReach
import ModifierToggle.Proofs.Scanning
import ModifierToggle.Proofs.WhiteGaps

set_option autoImplicit false

/-! # Cutting a text between clusters

Clusters are tokens that a cut behind them keeps (`Cluster.local_splitter`). Units are found from
the left with a look at the few bytes that belong to them, so that a cut between units keeps them; a
cut inside a unit leaves a broken one. Clusters of units do not look past the unit that ends them
either (`extent_stop`), and a broken unit ends them, too. So everything that is assumed of a
splitter holds of this one (`Cluster.lawful_splitter`). -/

namespace ModifierToggle.Cluster

/-! ## Units and bytes -/

/-- The units of a text. -/
abbrev units (t : Text) : List CodeUnit := unitsAfter 0 t

@[simp] theorem width_nil : width [] = 0 := rfl

@[simp] theorem width_cons (u : CodeUnit) (us : List CodeUnit) :
    width (u :: us) = u.size + width us := rfl

@[simp] theorem width_append (us vs : List CodeUnit) : width (us ++ vs) = width us + width vs := by
  induction us with
  | nil => rw [List.nil_append, width_nil, Nat.zero_add]
  | cons u us ih => rw [List.cons_append, width_cons, width_cons, ih, Nat.add_assoc]

theorem unitsAfter_eq (skip : Nat) (t : Text) : unitsAfter skip t = units (t.drop skip) := by
  induction t generalizing skip with
  | nil => cases skip <;> rfl
  | cons b t ih =>
    cases skip with
    | zero => rfl
    | succ skip => exact ih skip

theorem units_cons (b : UInt8) (rest : Text) :
    units (b :: rest) = unitAt b rest :: units (rest.drop ((unitAt b rest).size - 1)) := by
  rw [← unitsAfter_eq]
  rfl

theorem units_ne_nil {t : Text} (ht : t ≠ []) : units t ≠ [] := by
  obtain ⟨b, rest, rfl⟩ := List.exists_cons_of_ne_nil ht
  rw [units_cons]
  exact List.cons_ne_nil _ _

/-- The lead byte tells how many bytes a well-formed character has. -/
theorem tailLength?_of_front? {b : UInt8} {rest : Text} {c : Char} {more n : Nat}
    (h : Utf8.front? b rest = some (c, more)) (hn : tailLength? b = some n) : more = n := by
  unfold Utf8.front? at h
  unfold tailLength? at hn
  grind

theorem classOf_ne_broken (n : Nat) : classOf n ≠ .broken := by
  fun_cases classOf n <;> nofun

/-- The sequence at a lead byte has the shape of a character with `n` bytes behind the first. -/
def HasTail (b : UInt8) (rest : Text) (n : Nat) : Prop :=
  tailLength? b = some n ∧ n ≤ rest.length ∧ (rest.take n).all Utf8.isContinuation = true

theorem unitAt_of_front? {b : UInt8} {rest : Text} {c : Char} {more : Nat}
    (h : Utf8.front? b rest = some (c, more)) : unitAt b rest = ⟨classOf c.toNat, more + 1⟩ := by
  rw [unitAt, h]

theorem unitAt_of_hasTail {b : UInt8} {rest : Text} {n : Nat} (h : Utf8.front? b rest = none)
    (hn : HasTail b rest n) : unitAt b rest = ⟨.other, n + 1⟩ := by
  simp [unitAt, h, hn.1, hn.2.1, hn.2.2]

/-- A unit is a character, a sequence with the shape of one, or a single byte. -/
theorem unitAt_cases (b : UInt8) (rest : Text) :
    (∃ c more, Utf8.front? b rest = some (c, more) ∧ more ≤ rest.length ∧
      unitAt b rest = ⟨classOf c.toNat, more + 1⟩) ∨
    (∃ n, Utf8.front? b rest = none ∧ HasTail b rest n ∧ unitAt b rest = ⟨.other, n + 1⟩) ∨
    unitAt b rest = ⟨.broken, 1⟩ := by
  cases hfront : Utf8.front? b rest with
  | some found =>
    exact Or.inl ⟨found.1, found.2, rfl, Utf8.front?_le hfront, unitAt_of_front? hfront⟩
  | none =>
    refine Or.inr ?_
    by_cases htail : ∃ n, HasTail b rest n
    · obtain ⟨n, hn⟩ := htail
      exact Or.inl ⟨n, rfl, hn, unitAt_of_hasTail hfront hn⟩
    · refine Or.inr ?_
      simp only [unitAt, hfront]
      cases hlead : tailLength? b with
      | none => rfl
      | some n =>
        refine if_neg fun hall => ?_
        obtain ⟨hlength, hall⟩ := Bool.and_eq_true_iff.1 hall
        rw [beq_iff_eq, List.length_take] at hlength
        exact htail ⟨n, hlead, by omega, hall⟩

theorem unitAt_size (b : UInt8) (rest : Text) :
    0 < (unitAt b rest).size ∧ (unitAt b rest).size ≤ rest.length + 1 := by
  rcases unitAt_cases b rest with ⟨c, more, -, hle, hunit⟩ | ⟨n, -, hn, hunit⟩ | hunit <;>
    rw [hunit]
  · exact ⟨Nat.succ_pos _, Nat.succ_le_succ hle⟩
  · exact ⟨Nat.succ_pos _, Nat.succ_le_succ hn.2.1⟩
  · exact ⟨Nat.one_pos, Nat.succ_pos _⟩

theorem unitAt_eq_broken {b : UInt8} {rest : Text} (h : (unitAt b rest).kind = .broken) :
    unitAt b rest = ⟨.broken, 1⟩ := by
  rcases unitAt_cases b rest with ⟨c, more, -, -, hunit⟩ | ⟨n, -, -, hunit⟩ | hunit
  · rw [hunit] at h
    exact absurd h (classOf_ne_broken _)
  · rw [hunit] at h
    cases h
  · exact hunit

/-- A unit that is not broken depends on nothing but its own bytes. -/
theorem unitAt_congr {b : UInt8} {rest rest' : Text} (h : (unitAt b rest).kind ≠ .broken)
    (hbytes : rest'.take ((unitAt b rest).size - 1) = rest.take ((unitAt b rest).size - 1)) :
    unitAt b rest' = unitAt b rest := by
  rcases unitAt_cases b rest with ⟨c, more, hfront, -, hunit⟩ | ⟨n, hnone, hn, hunit⟩ | hunit <;>
    rw [hunit] at h hbytes ⊢
  · have hfront' := Utf8.front?_take hfront (rest'.drop more)
    rw [Nat.add_sub_cancel] at hbytes
    rw [← hbytes, List.take_append_drop] at hfront'
    exact unitAt_of_front? hfront'
  · rw [Nat.add_sub_cancel] at hbytes
    obtain ⟨hlead, hlength, hall⟩ := hn
    refine unitAt_of_hasTail ?_ ⟨hlead, ?_, hbytes ▸ hall⟩
    · -- a character would have as many bytes, and they are the same
      cases hfront : Utf8.front? b rest' with
      | none => rfl
      | some found =>
        obtain ⟨c, more⟩ := found
        obtain rfl := tailLength?_of_front? hfront hlead
        have hfront' := Utf8.front?_take hfront (rest.drop more)
        rw [hbytes, List.take_append_drop, hnone] at hfront'
        cases hfront'
    · have hlengths := congrArg List.length hbytes
      rw [List.length_take, List.length_take] at hlengths
      omega
  · exact absurd rfl h

/-- A unit that is not broken stays as it is when the text goes on. -/
theorem unitAt_append {b : UInt8} {rest : Text} (h : (unitAt b rest).kind ≠ .broken) (v : Text) :
    unitAt b (rest ++ v) = unitAt b rest := by
  refine unitAt_congr h (List.take_append_of_le_length ?_)
  have hsize := unitAt_size b rest
  omega

/-- A unit stays as it is when the text is cut behind it. -/
theorem unitAt_take {b : UInt8} {rest : Text} {k : Nat} (h : (unitAt b rest).size ≤ k + 1) :
    unitAt b (rest.take k) = unitAt b rest := by
  by_cases hbroken : (unitAt b rest).kind = .broken
  · have hcut : (unitAt b (rest.take k)).kind = .broken := by
      by_contra hcut
      have happend := unitAt_append hcut (rest.drop k)
      rw [List.take_append_drop] at happend
      exact hcut (happend ▸ hbroken)
    rw [unitAt_eq_broken hbroken, unitAt_eq_broken hcut]
  · refine unitAt_congr hbroken ?_
    rw [List.take_take, Nat.min_eq_left (by omega)]

/-- A text is empty, or a unit with a text behind it. -/
theorem units_induction {motive : Text → Prop} (nil : motive [])
    (cons : ∀ b rest, motive (rest.drop ((unitAt b rest).size - 1)) → motive (b :: rest))
    (t : Text) : motive t := by
  induction hn : t.length using Nat.strong_induction_on generalizing t with
  | _ n ih =>
    cases t with
    | nil => exact nil
    | cons b rest =>
      refine cons b rest (ih _ ?_ _ rfl)
      rw [← hn, List.length_drop, List.length_cons]
      omega

/-- Units make up the text. -/
theorem width_units (t : Text) : width (units t) = t.length := by
  induction t using units_induction with
  | nil => rfl
  | cons b rest ih =>
    have hsize := unitAt_size b rest
    rw [units_cons, width_cons, ih, List.length_drop, List.length_cons]
    omega

theorem width_take_le (us : List CodeUnit) (m : Nat) : width (us.take m) ≤ width us := by
  conv_rhs => rw [← List.take_append_drop m us, width_append]
  exact Nat.le_add_right _ _

/-- A cut that spares some units keeps them. -/
theorem take_units_take {t : Text} {m p : Nat} (h : width ((units t).take m) ≤ p) :
    (units (t.take p)).take m = (units t).take m := by
  induction m generalizing t p with
  | zero => rfl
  | succ m ih =>
    cases t with
    | nil => rw [List.take_nil]
    | cons b rest =>
      have hsize := unitAt_size b rest
      rw [units_cons, List.take_succ_cons, width_cons] at h
      obtain ⟨p, rfl⟩ : ∃ q, p = q + 1 := ⟨p - 1, by omega⟩
      rw [List.take_succ_cons, units_cons, units_cons, unitAt_take (by omega), List.take_succ_cons,
        List.take_succ_cons, List.drop_take, ih (by omega)]

/-- Behind some units, the text has the other ones. -/
theorem units_drop (t : Text) (m : Nat) :
    units (t.drop (width ((units t).take m))) = (units t).drop m := by
  induction m generalizing t with
  | zero => rfl
  | succ m ih =>
    cases t with
    | nil => rfl
    | cons b rest =>
      have hsize := unitAt_size b rest
      obtain ⟨k, hk⟩ : ∃ k, (unitAt b rest).size = k + 1 := ⟨_, (Nat.sub_add_cancel hsize.1).symm⟩
      rw [units_cons, List.take_succ_cons, width_cons, List.drop_succ_cons, ← ih, hk,
        Nat.add_right_comm, List.drop_succ_cons, Nat.add_sub_cancel, List.drop_drop]

theorem unitsUpTo_eq (n skip : Nat) (t : Text) :
    unitsUpTo n skip t = (unitsAfter skip t).take n := by
  induction t generalizing n skip with
  | nil => cases n <;> cases skip <;> rfl
  | cons b t ih =>
    cases n with
    | zero => cases skip <;> rfl
    | succ n =>
      cases skip with
      | zero => exact congrArg (_ :: ·) (ih n _)
      | succ skip => exact ih (n + 1) skip

/-! ## The first cluster -/

/-- A few units are enough to find a cluster that ends among them. -/
theorem firstSize_eq (t : Text) :
    firstSize t = width ((units t).take (extent (units t))) := by
  simp only [firstSize, unitsAhead, unitsUpTo_eq]
  split
  · next hlt =>
    have hextent : extent ((units t).take near ++ (units t).drop near) = _ := extent_stop hlt
    rw [List.take_append_drop] at hextent
    rw [List.length_take] at hlt
    rw [hextent, List.take_take, Nat.min_eq_left (by omega)]
  · rfl

theorem firstSize_pos (b : UInt8) (rest : Text) : 0 < firstSize (b :: rest) := by
  have hextent := extent_pos (units_ne_nil (List.cons_ne_nil b rest))
  have hsize := unitAt_size b rest
  obtain ⟨e, he⟩ := Nat.exists_eq_succ_of_ne_zero (Nat.ne_of_gt hextent)
  rw [firstSize_eq, he, units_cons, List.take_succ_cons, width_cons]
  omega

theorem firstSize_le_length (t : Text) : firstSize t ≤ t.length := by
  rw [firstSize_eq, ← width_units]
  exact width_take_le _ _

/-- The first unit of a cut text is the first one of the text, or broken. -/
theorem head_units_take {t : Text} {k : Nat} {w : CodeUnit} {ws : List CodeUnit}
    (h : units (t.take k) = w :: ws) : w.kind = .broken ∨ ∃ vs, units t = w :: vs := by
  cases t with
  | nil =>
    rw [List.take_nil] at h
    cases h
  | cons b rest =>
    cases k with
    | zero => cases h
    | succ k =>
      rw [List.take_succ_cons, units_cons] at h
      obtain ⟨rfl, -⟩ := List.cons.inj h
      by_cases hbroken : (unitAt b (rest.take k)).kind = .broken
      · exact Or.inl hbroken
      · have hkept := unitAt_append hbroken (rest.drop k)
        rw [List.take_append_drop] at hkept
        exact Or.inr ⟨_, by rw [units_cons, hkept]⟩

/-- A part of the units that has all of the first cluster has it as its own. -/
theorem extent_take {us : List CodeUnit} {m : Nat} (h : extent us ≤ m) :
    extent (us.take m) = extent us := by
  have hle := extent_le_length us
  have hfront : extent (us.take m) = extent (us.take m ++ us.drop m) :=
    extent_front (by rw [List.take_append_drop, List.length_take]; omega)
  rwa [List.take_append_drop] at hfront

/-- The units of a cluster, with the unit that ends it or with a broken one behind them, have it as
    their cluster. -/
theorem extent_take_append {us ws : List CodeUnit} (hus : us ≠ [])
    (hws : ∀ w ∈ ws.head?, w.kind = .broken ∨ us[extent us]? = some w) :
    extent (us.take (extent us) ++ ws) = extent us := by
  have hle := extent_le_length us
  have hself := extent_take (Nat.le_refl (extent us))
  cases ws with
  | nil => rwa [List.append_nil]
  | cons w ws =>
    rcases hws w rfl with hbroken | hnext
    · have hne : us.take (extent us) ≠ [] := by
        have hpos := extent_pos hus
        rw [← List.length_pos_iff, List.length_take]
        omega
      rw [extent_append_broken hne hbroken, hself]
    · -- the same unit ends the cluster here and there
      obtain ⟨hlt, rfl⟩ := List.getElem?_eq_some_iff.1 hnext
      have hsucc := List.take_succ_eq_append_getElem hlt
      have hfront := extent_take (Nat.le_succ (extent us))
      rw [hsucc] at hfront
      have hstop : extent ((us.take (extent us) ++ [us[extent us]]) ++ ws)
          = extent (us.take (extent us) ++ [us[extent us]]) :=
        extent_stop (by rw [hfront, List.length_append, List.length_take]; simp; omega)
      rw [List.append_assoc, List.singleton_append] at hstop
      rw [hstop, hfront]

/-- **A cut behind the first cluster keeps it,** also a cut inside a unit. -/
theorem firstSize_take {t : Text} {k : Nat} (h : firstSize t ≤ k) :
    firstSize (t.take k) = firstSize t := by
  by_cases ht : t = []
  · rw [ht, List.take_nil]
  rw [firstSize_eq] at h
  rw [firstSize_eq, firstSize_eq]
  have hfront := take_units_take h
  have hcut : units (t.take k)
      = (units t).take (extent (units t)) ++ (units (t.take k)).drop (extent (units t)) := by
    rw [← hfront, List.take_append_drop]
  have hextent : extent (units (t.take k)) = extent (units t) := by
    rw [hcut]
    refine extent_take_append (units_ne_nil ht) fun w hw => ?_
    -- behind the cluster, the cut text is a cut of what follows it
    obtain ⟨ws, hws⟩ := List.head?_eq_some_iff.1 hw
    rw [← units_drop, hfront, List.drop_take] at hws
    rcases head_units_take hws with hbroken | ⟨vs, hvs⟩
    · exact Or.inl hbroken
    · rw [units_drop] at hvs
      refine Or.inr ?_
      rw [← List.head?_drop, hvs, List.head?_cons]
  rw [hextent, hfront]

/-! ## Clusters as tokens -/

theorem scan_cons (b : UInt8) (rest : Text) :
    splitter.scan (b :: rest) true = .token (firstSize (b :: rest)) := rfl

theorem finds_splitter : splitter.Finds where
  empty _ := rfl
  atEnd t ht := by
    obtain ⟨b, rest, rfl⟩ := List.exists_cons_of_ne_nil ht
    exact ⟨_, scan_cons b rest, firstSize_pos b rest, firstSize_le_length _⟩
  beforeEnd t := by
    cases t with
    | nil => exact Or.inl rfl
    | cons b rest =>
      by_cases hstalls : (unitAt b rest).kind.stalls = true
      · exact Or.inl (if_pos hstalls)
      · exact Or.inr (if_neg hstalls)

/-- **Clusters are found by what is in them and at their end.** -/
theorem local_splitter : splitter.Local := by
  intro t n k hn hk
  cases t with
  | nil => cases hn
  | cons b rest =>
    obtain rfl := Scan.token.inj hn
    obtain ⟨k, rfl⟩ := Nat.exists_eq_succ_of_ne_zero
      (Nat.ne_of_gt (Nat.lt_of_lt_of_le (firstSize_pos b rest) hk))
    have hkept := firstSize_take hk
    rw [List.take_succ_cons] at hkept ⊢
    rw [scan_cons, hkept]

theorem lawful_splitter : splitter.Lawful := finds_splitter.lawful local_splitter

end ModifierToggle.Cluster
