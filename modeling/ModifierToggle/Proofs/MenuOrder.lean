import Mathlib.Data.List.Nodup
import ModifierToggle.Proofs.MenuAgain

set_option autoImplicit false

/-! # The order of the menu

The entries that change the visibility are collected in one walk over the names of a table, and each
gets a sort index when it is collected: the place of its name in the access order, or, behind all of
those, the place where the walk has met it. That index is a *rank* of the name, which no other name
offered has (`Language.rank_injective`). So sorting by it leaves no two entries equal, and the order
of the menu is the order of ranks (`Inspection.menu_visibilityFamily`). -/

namespace ModifierToggle

/-! ## Sorting -/

namespace Action

variable {a : Action} {actions : List Action}

theorem insert_sorted (h : actions.Pairwise fun x y => x.sortIndex ≤ y.sortIndex) :
    (a.insert actions).Pairwise fun x y => x.sortIndex ≤ y.sortIndex := by
  induction actions with
  | nil => exact List.pairwise_singleton _ _
  | cons b rest ih =>
    obtain ⟨hb, hrest⟩ := List.pairwise_cons.1 h
    rw [insert]
    split
    · next hle =>
      refine List.pairwise_cons.2 ⟨fun x hx => ?_, ih hrest⟩
      rcases List.mem_cons.1 ((a.insert_perm rest).mem_iff.1 hx) with rfl | hx
      · exact hle
      · exact hb x hx
    · next hlt =>
      refine List.pairwise_cons.2 ⟨fun x hx => ?_, h⟩
      rcases List.mem_cons.1 hx with rfl | hx
      · omega
      · have := hb x hx
        omega

theorem sort_sorted (actions : List Action) :
    (sort actions).Pairwise fun x y => x.sortIndex ≤ y.sortIndex := by
  have hfold : ∀ sorted : List Action,
      (sorted.Pairwise fun x y => x.sortIndex ≤ y.sortIndex) →
      (actions.foldl (fun sorted a => a.insert sorted) sorted).Pairwise
        fun x y => x.sortIndex ≤ y.sortIndex := by
    induction actions with
    | nil => exact fun _ h => h
    | cons a rest ih => exact fun _ h => ih _ (insert_sorted h)
  exact hfold [] List.Pairwise.nil

end Action

/-! ## Ranks -/

namespace Language

variable {lang : Language} {names : List Text} {v w : Text} {index : Nat}

/-- The place of a name in the menu: that in the access order, and behind all of those that among
    the names offered. -/
def rank (lang : Language) (names : List Text) (v : Text) : Nat :=
  if lang.accessOrder.contains v then lang.accessOrder.idxOf v
  else lang.accessOrder.length + names.idxOf v

/-- The name `v` comes before the name `w` in the menu: listed names by their first place in the
    access order, before all others, which come in the order in which they are met. -/
def Precedes (lang : Language) (names : List Text) (v w : Text) : Prop :=
  v ∈ lang.accessOrder ∧
      (w ∈ lang.accessOrder → lang.accessOrder.idxOf v < lang.accessOrder.idxOf w) ∨
    v ∉ lang.accessOrder ∧ w ∉ lang.accessOrder ∧ names.idxOf v < names.idxOf w

theorem rank_of_mem (h : v ∈ lang.accessOrder) :
    lang.rank names v = lang.accessOrder.idxOf v := by
  rw [rank, if_pos (List.contains_iff_mem.2 h)]

theorem rank_of_notMem (h : v ∉ lang.accessOrder) :
    lang.rank names v = lang.accessOrder.length + names.idxOf v := by
  rw [rank, if_neg (mt List.contains_iff_mem.1 h)]

/-- The sort index of a name whose first place among the names is `index`. -/
theorem getD_accessIndex? (h : names.idxOf v = index) :
    (lang.accessIndex? v).getD (lang.accessOrder.length + index) = lang.rank names v := by
  have hfind : lang.accessIndex? v = lang.accessOrder.idxOf? v := rfl
  have hidxOf := lang.accessOrder.idxOf_eq_getD_idxOf? v
  rw [hfind]
  cases hindex : lang.accessOrder.idxOf? v with
  | none => rw [rank_of_notMem (List.idxOf?_eq_none_iff.1 hindex), Option.getD_none, h]
  | some i =>
    have hmem : v ∈ lang.accessOrder := by
      by_contra hmem
      rw [List.idxOf?_eq_none_iff.2 hmem] at hindex
      cases hindex
    rw [rank_of_mem hmem, hidxOf, hindex, Option.getD_some, Option.getD_some]

theorem rank_injective (hv : v ∈ names) (h : lang.rank names v = lang.rank names w) : v = w := by
  by_cases hlisted : v ∈ lang.accessOrder
  · have hlt := List.idxOf_lt_length_of_mem hlisted
    rw [rank_of_mem hlisted] at h
    by_cases hw : w ∈ lang.accessOrder
    · rw [rank_of_mem hw] at h
      exact (List.idxOf_inj hlisted).1 h
    · rw [rank_of_notMem hw] at h
      omega
  · rw [rank_of_notMem hlisted] at h
    by_cases hw : w ∈ lang.accessOrder
    · have hlt := List.idxOf_lt_length_of_mem hw
      rw [rank_of_mem hw] at h
      omega
    · rw [rank_of_notMem hw] at h
      exact (List.idxOf_inj hv).1 (by omega)

/-- The order of ranks is the order of the menu. -/
theorem precedes_of_rank_lt (h : lang.rank names v < lang.rank names w) :
    lang.Precedes names v w := by
  by_cases hlisted : v ∈ lang.accessOrder
  · refine Or.inl ⟨hlisted, fun hw => ?_⟩
    rwa [rank_of_mem hlisted, rank_of_mem hw] at h
  · rw [rank_of_notMem hlisted] at h
    by_cases hw : w ∈ lang.accessOrder
    · have hlt := List.idxOf_lt_length_of_mem hw
      rw [rank_of_mem hw] at h
      omega
    · rw [rank_of_notMem hw] at h
      exact Or.inr ⟨hlisted, hw, by omega⟩

end Language

namespace Inspection

variable {s : Inspection} {lang : Language}

/-! ## The entries that change the visibility -/

/-- A name that makes an entry wherever it is met first. -/
def Offerable (s : Inspection) (v : Text) : Prop := v ≠ [] ∧ v ≠ s.visibility

/-- The entry for a visibility, where `names` are all the names of the table. -/
def visibilityEntry (s : Inspection) (lang : Language) (names : List Text) (v : Text) : Action where
  label := utf8 "Make " ++ v
  job := .changeAccess
  target := some s
  visibility := v
  sortIndex := lang.rank names v

/-- The names that make an entry, in the order in which they are met behind the names `seen`. -/
def newNames (s : Inspection) (seen : List Text) : List Text → List Text
  | [] => []
  | v :: rest =>
    if v.isEmpty || v == s.visibility || seen.contains v then s.newNames seen rest
    else v :: s.newNames (v :: seen) rest

/-- The names that are passed over: those that cannot be offered, and those seen. -/
theorem passes_iff {seen : List Text} {v : Text} :
    (v.isEmpty || v == s.visibility || seen.contains v) = true ↔
      v = [] ∨ v = s.visibility ∨ v ∈ seen := by
  simp [or_assoc]

theorem mem_newNames {seen names : List Text} {v : Text} :
    v ∈ s.newNames seen names ↔ v ∈ names ∧ s.Offerable v ∧ v ∉ seen := by
  fun_induction newNames s seen names with
  | case1 seen => simp
  | case2 seen first rest hskip ih =>
    rw [ih, List.mem_cons]
    constructor
    · exact fun ⟨hmem, hnew⟩ => ⟨Or.inr hmem, hnew⟩
    · rintro ⟨rfl | hmem, hoffer, hnew⟩
      · rcases passes_iff.1 hskip with h | h | h
        · exact absurd h hoffer.1
        · exact absurd h hoffer.2
        · exact absurd h hnew
      · exact ⟨hmem, hoffer, hnew⟩
  | case3 seen first rest htake ih =>
    rw [passes_iff, not_or, not_or] at htake
    rw [List.mem_cons, ih, List.mem_cons, List.mem_cons, not_or]
    constructor
    · rintro (rfl | ⟨hmem, hoffer, -, hnew⟩)
      · exact ⟨Or.inl rfl, ⟨htake.1, htake.2.1⟩, htake.2.2⟩
      · exact ⟨Or.inr hmem, hoffer, hnew⟩
    · rintro ⟨rfl | hmem, hoffer, hnew⟩
      · exact Or.inl rfl
      · by_cases hfirst : v = first
        · exact Or.inl hfirst
        · exact Or.inr ⟨hmem, hoffer, hfirst, hnew⟩

theorem nodup_newNames (seen names : List Text) : (s.newNames seen names).Nodup := by
  fun_induction newNames s seen names with
  | case1 seen => exact List.nodup_nil
  | case2 seen first rest hskip ih => exact ih
  | case3 seen first rest htake ih =>
    refine List.nodup_cons.2 ⟨fun hmem => ?_, ih⟩
    exact (mem_newNames.1 hmem).2.2 List.mem_cons_self

/-- A name that is met now has its first place here, where all names met before that could make an
    entry are among the names seen. -/
theorem visibilityEntries_eq (s : Inspection) (lang : Language) (passed names seen : List Text)
    (hseen : ∀ v, s.Offerable v → v ∈ passed → v ∈ seen) :
    s.visibilityEntries lang passed.length seen names
      = (s.newNames seen names).map (s.visibilityEntry lang (passed ++ names)) := by
  induction names generalizing passed seen with
  | nil => rfl
  | cons v rest ih =>
    have hsplit : passed ++ v :: rest = (passed ++ [v]) ++ rest := by simp
    have hlength : passed.length + 1 = (passed ++ [v]).length := by simp
    rw [visibilityEntries, newNames]
    by_cases hskip : v = [] ∨ v = s.visibility ∨ v ∈ seen
    · rw [if_pos (passes_iff.2 hskip), if_pos (passes_iff.2 hskip), hsplit, hlength]
      refine ih _ _ fun w hw hmem => ?_
      rcases List.mem_append.1 hmem with hmem | hmem
      · exact hseen w hw hmem
      · obtain rfl := List.mem_singleton.1 hmem
        exact hskip.elim (fun h => absurd h hw.1) (·.elim (fun h => absurd h hw.2) id)
    · rw [if_neg (mt passes_iff.1 hskip), if_neg (mt passes_iff.1 hskip), List.map_cons]
      rw [not_or, not_or] at hskip
      obtain ⟨hne, hother, hnew⟩ := hskip
      have hfirst : (passed ++ v :: rest).idxOf v = passed.length := by
        have hnotPassed : v ∉ passed := fun hmem => hnew (hseen v ⟨hne, hother⟩ hmem)
        rw [List.idxOf_append_of_notMem hnotPassed, List.idxOf_cons_self, Nat.add_zero]
      have hentry : s.visibilityEntry lang (passed ++ v :: rest) v
          = { label := utf8 "Make " ++ v, job := .changeAccess, target := some s, visibility := v
              sortIndex := (lang.accessIndex? v).getD
                (lang.accessOrder.length + passed.length) } := by
        rw [visibilityEntry, Language.getD_accessIndex? hfirst]
      rw [hentry, hsplit, hlength]
      congr 1
      refine ih _ _ fun w hw hmem => ?_
      rcases List.mem_append.1 hmem with hmem | hmem
      · exact List.mem_cons_of_mem _ (hseen w hw hmem)
      · exact List.mem_cons.2 (Or.inl (List.mem_singleton.1 hmem))

/-- The entries that change the visibility are those of the names that can be offered, each once. -/
theorem visibilityActions_perm (s : Inspection) (lang : Language) :
    (s.visibilityActions lang).Perm ((s.newNames [] (s.visibilityNames lang)).map
      (s.visibilityEntry lang (s.visibilityNames lang))) := by
  have hentries := s.visibilityEntries_eq lang [] (s.visibilityNames lang) [] fun v _ hv => hv
  rw [List.nil_append] at hentries
  rw [← hentries]
  exact Action.sort_perm _

theorem visibilityActions_names_perm (s : Inspection) (lang : Language) :
    ((s.visibilityActions lang).map (·.visibility)).Perm
      (s.newNames [] (s.visibilityNames lang)) := by
  have hperm := (s.visibilityActions_perm lang).map (·.visibility)
  rw [List.map_map] at hperm
  simpa [Function.comp_def, visibilityEntry] using hperm

/-- An entry that changes the visibility is the entry for its name. -/
theorem eq_visibilityEntry {a : Action} (h : a ∈ s.visibilityActions lang) :
    a = s.visibilityEntry lang (s.visibilityNames lang) a.visibility ∧
      a.visibility ∈ s.visibilityNames lang := by
  obtain ⟨v, hv, rfl⟩ := List.mem_map.1 ((s.visibilityActions_perm lang).mem_iff.1 h)
  exact ⟨rfl, (mem_newNames.1 hv).1⟩

theorem sortIndex_eq_rank {a : Action} (h : a ∈ s.visibilityActions lang) :
    a.sortIndex = lang.rank (s.visibilityNames lang) a.visibility :=
  congrArg Action.sortIndex (eq_visibilityEntry h).1

/-- **Sorting leaves no two of them equal.** -/
theorem visibilityActions_increasing (s : Inspection) (lang : Language) :
    (s.visibilityActions lang).Pairwise fun a c => a.sortIndex < c.sortIndex := by
  have hnodup : ((s.visibilityActions lang).map (·.visibility)).Nodup :=
    (s.visibilityActions_names_perm lang).nodup_iff.2 (nodup_newNames _ _)
  refine ((Action.sort_sorted _).and (List.pairwise_map.1 hnodup)).imp_of_mem ?_
  rintro a c ha hc ⟨hle, hne⟩
  refine Nat.lt_of_le_of_ne hle fun heq => hne ?_
  rw [sortIndex_eq_rank ha, sortIndex_eq_rank hc] at heq
  exact Language.rank_injective (eq_visibilityEntry ha).2 heq

theorem visibilityActions_ordered (s : Inspection) (lang : Language) :
    (s.visibilityActions lang).Pairwise fun a c =>
      lang.Precedes (s.visibilityNames lang) a.visibility c.visibility := by
  refine (s.visibilityActions_increasing lang).imp_of_mem fun {a c} ha hc hlt => ?_
  rw [sortIndex_eq_rank ha, sortIndex_eq_rank hc] at hlt
  exact Language.precedes_of_rank_lt hlt

/-- A name that can be offered is offered once, and no other name is. -/
theorem count_visibilityActions (s : Inspection) (lang : Language) (v : Text) :
    ((s.visibilityActions lang).map (·.visibility)).count v
      = if v ∈ s.visibilityNames lang ∧ v ≠ [] ∧ v ≠ s.visibility then 1 else 0 := by
  rw [(s.visibilityActions_names_perm lang).count_eq, (nodup_newNames _ _).count]
  simp [mem_newNames, Offerable]

/-! ## The whole menu -/

theorem toggle_of_has {m : Modifier} (h : s.has m = true) (removing adding : Text × Job) :
    s.toggle m removing adding = { label := removing.1, job := removing.2, target := some s } := by
  rw [toggle, h]
  rfl

theorem toggle_of_not_has {m : Modifier} (h : s.has m = false) (removing adding : Text × Job) :
    s.toggle m removing adding = { label := adding.1, job := adding.2, target := some s } := by
  rw [toggle, h]
  rfl

/-- A toggle that is offered on a condition does not change the visibility. -/
theorem job_ne_of_mem_toggle {c : Bool} {m : Modifier} {removing adding : Text × Job} {a : Action}
    (hremoving : removing.2 ≠ .changeAccess) (hadding : adding.2 ≠ .changeAccess)
    (h : a ∈ if c then [s.toggle m removing adding] else []) : a.job ≠ .changeAccess := by
  split at h
  · obtain rfl := List.mem_singleton.1 h
    cases hhas : s.has m with
    | true => rwa [toggle_of_has hhas]
    | false => rwa [toggle_of_not_has hhas]
  · cases h

theorem job_ne_of_mem_classToggles {a : Action} (h : a ∈ s.classToggles lang) :
    a.job ≠ .changeAccess := by
  unfold classToggles at h
  rcases List.mem_append.1 h with h | h
  · exact job_ne_of_mem_toggle (by decide) (by decide) h
  · split at h
    · exact job_ne_of_mem_toggle (by simp) (by simp) h
    · cases h

theorem job_ne_of_mem_memberToggles {a : Action} (h : a ∈ s.memberToggles lang) :
    a.job ≠ .changeAccess := by
  unfold memberToggles at h
  simp only [List.mem_append] at h
  rcases h with ((h | h) | h) | h
  · exact job_ne_of_mem_toggle (by decide) (by decide) h
  · exact job_ne_of_mem_toggle (by decide) (by decide) h
  · exact job_ne_of_mem_toggle (by decide) (by decide) h
  · split at h
    · exact job_ne_of_mem_toggle (by simp) (by simp) h
    · cases h

/-- The menu is the entries that change the visibility, and behind them the toggles of the kind. -/
theorem menu_eq (hkind : s.kind ≠ .none) (lang : Language) :
    ∃ toggles, s.menu lang = s.visibilityActions lang ++ toggles ∧
      (∀ a ∈ toggles, a.job ≠ .changeAccess) ∧
      (s.kind = .classDecl ∧ toggles = s.classToggles lang ∨ s.kind = .constructor ∧ toggles = [] ∨
        (s.kind = .method ∨ s.kind = .field) ∧ toggles = s.memberToggles lang) := by
  cases h : s.kind with
  | none => exact absurd h hkind
  | classDecl =>
    exact ⟨s.classToggles lang, by rw [menu, h], fun _ => job_ne_of_mem_classToggles, by simp⟩
  | constructor => exact ⟨[], by rw [menu, h, List.append_nil], by simp, by simp⟩
  | method =>
    exact ⟨s.memberToggles lang, by rw [menu, h], fun _ => job_ne_of_mem_memberToggles, by simp⟩
  | field =>
    exact ⟨s.memberToggles lang, by rw [menu, h], fun _ => job_ne_of_mem_memberToggles, by simp⟩

theorem filter_menu (hkind : s.kind ≠ .none) (lang : Language) :
    (s.menu lang).filter (·.job == .changeAccess) = s.visibilityActions lang := by
  obtain ⟨toggles, hmenu, hjobs, -⟩ := menu_eq hkind lang
  have hfamily : ∀ a ∈ s.visibilityActions lang, (a.job == .changeAccess) = true := fun a ha => by
    rw [(eq_visibilityEntry ha).1]
    rfl
  rw [hmenu, List.filter_append, List.filter_eq_self.2 hfamily,
    List.filter_eq_nil_iff.2 fun a ha => by simpa using hjobs a ha, List.append_nil]

/-! ## Labels -/

/-- Labels of toggles that are different from each other, and from those of the visibilities
    given. -/
def LabelsApart (labels names : List Text) : Prop :=
  labels.Nodup ∧ ∀ l ∈ labels, ∀ v ∈ names, l ≠ utf8 "Make " ++ v

instance (labels names : List Text) : Decidable (LabelsApart labels names) :=
  inferInstanceAs (Decidable (_ ∧ _))

theorem nodup_labels {toggles : List Action}
    (h : LabelsApart (toggles.map (·.label)) (s.visibilityNames lang)) :
    ((s.visibilityActions lang ++ toggles).map (·.label)).Nodup := by
  have hlabels : (s.visibilityActions lang).map (·.label)
      = ((s.visibilityActions lang).map (·.visibility)).map (utf8 "Make " ++ ·) := by
    rw [List.map_map]
    refine List.map_congr_left fun a ha => ?_
    exact congrArg Action.label (eq_visibilityEntry ha).1
  have hfamily : ((s.visibilityActions lang).map (·.label)).Nodup := by
    rw [hlabels]
    refine List.Nodup.map (fun v w => List.append_cancel_left) ?_
    exact (s.visibilityActions_names_perm lang).nodup_iff.2 (nodup_newNames _ _)
  rw [List.map_append]
  refine List.nodup_append'.2 ⟨hfamily, h.1, fun l hl hl' => ?_⟩
  obtain ⟨a, ha, rfl⟩ := List.mem_map.1 hl
  obtain ⟨hentry, hname⟩ := eq_visibilityEntry ha
  exact h.2 _ hl' _ hname (congrArg Action.label hentry)

theorem label_toggle (s : Inspection) (m : Modifier) (removing adding : Text × Job) :
    (s.toggle m removing adding).label = if s.has m then removing.1 else adding.1 := by
  cases h : s.has m with
  | true => rw [toggle_of_has h]; rfl
  | false => rw [toggle_of_not_has h]; rfl

/-- The toggles of a class in a table that can be built. -/
theorem classToggles_labelsApart {name base : Text} {opts : LanguageOptions}
    (h : Language.build name base opts = .ok lang) :
    LabelsApart ((s.classToggles lang).map (·.label)) lang.classVisibilities := by
  obtain ⟨n, rfl | rfl⟩ := Language.build_cases h
  · have htoggles : s.classToggles { Language.haxe opts with name := n }
        = [s.toggle .final (utf8 "Make not final", .makeClassNotFinal)
            (utf8 "Make final", .makeClassFinal),
          s.toggle .external (utf8 "Make not extern", .makeClassNotExternal)
            (utf8 "Make extern", .makeClassExternal)] := rfl
    simp only [htoggles, List.map_cons, List.map_nil, label_toggle]
    show LabelsApart _ [utf8 "public", utf8 "private"]
    cases s.has .final <;> cases s.has .external <;> decide
  · have htoggles : s.classToggles { Language.actionScript3 opts with name := n }
        = [s.toggle .final (utf8 "Make not final", .makeClassNotFinal)
            (utf8 "Make final", .makeClassFinal)] := rfl
    simp only [htoggles, List.map_cons, List.map_nil, label_toggle]
    show LabelsApart _ [utf8 "public", utf8 "internal"]
    cases s.has .final <;> decide

/-- Labels that start with another letter are apart from those of all visibilities. -/
theorem labelsApart_of_head {labels : List Text} (names : List Text)
    (h : labels.Nodup ∧ ∀ l ∈ labels, l.head? ≠ (utf8 "Make ").head?) :
    LabelsApart labels names := by
  refine ⟨h.1, fun l hl v _ heq => h.2 l hl ?_⟩
  rw [heq]
  rfl

theorem labels_sublist_of_toggle (s : Inspection) (c : Bool) (m : Modifier)
    (removing adding : Text × Job) :
    ((if c then [s.toggle m removing adding] else []).map (·.label)).Sublist
      [if s.has m then removing.1 else adding.1] := by
  cases c with
  | false => exact List.nil_sublist _
  | true =>
    rw [← label_toggle s m removing adding]
    exact List.Sublist.refl _

/-- The labels of the toggles of a method or field, some of which may be missing. -/
theorem memberToggles_labels_sublist
    (h : ∀ tok, lang.token? .noCompletion = some tok → tok.keyword = utf8 "@:noCompletion") :
    ((s.memberToggles lang).map (·.label)).Sublist
      [if s.has .final then utf8 "Remove final" else utf8 "Add final",
        if s.has .static then utf8 "Remove static modifier" else utf8 "Add static modifier",
        if s.has .inlined then utf8 "Remove inline modifier" else utf8 "Add inline modifier",
        if s.has .noCompletion then utf8 "Remove @:noCompletion"
          else utf8 "Add @:noCompletion"] := by
  rw [memberToggles, List.map_append, List.map_append, List.map_append]
  refine (((s.labels_sublist_of_toggle _ _ _ _).append (s.labels_sublist_of_toggle _ _ _ _)).append
    (s.labels_sublist_of_toggle _ _ _ _)).append ?_
  split
  · next tok htok =>
    rw [h tok htok]
    exact s.labels_sublist_of_toggle _ _ _ _
  · exact List.nil_sublist _

/-- The toggles of a method or field in a table that can be built. -/
theorem memberToggles_labelsApart {name base : Text} {opts : LanguageOptions}
    (h : Language.build name base opts = .ok lang) (names : List Text) :
    LabelsApart ((s.memberToggles lang).map (·.label)) names := by
  have hspelled : ∀ tok, lang.token? .noCompletion = some tok →
      tok.keyword = utf8 "@:noCompletion" := by
    obtain ⟨n, rfl | rfl⟩ := Language.build_cases h
    · rintro tok ⟨⟩
      rfl
    · rintro tok ⟨⟩
  have hsublist := memberToggles_labels_sublist (s := s) hspelled
  have hall : ∀ final static inlined completion : Bool,
      let labels := [if final then utf8 "Remove final" else utf8 "Add final",
        if static then utf8 "Remove static modifier" else utf8 "Add static modifier",
        if inlined then utf8 "Remove inline modifier" else utf8 "Add inline modifier",
        if completion then utf8 "Remove @:noCompletion" else utf8 "Add @:noCompletion"]
      labels.Nodup ∧ ∀ l ∈ labels, l.head? ≠ (utf8 "Make ").head? := by
    decide
  obtain ⟨hnodup, hhead⟩ :=
    hall (s.has .final) (s.has .static) (s.has .inlined) (s.has .noCompletion)
  exact labelsApart_of_head names
    ⟨hnodup.sublist hsublist, fun l hl => hhead l (hsublist.subset hl)⟩

/-- All labels of a menu are different. -/
theorem nodup_menu_labels {name base : Text} {opts : LanguageOptions}
    (h : Language.build name base opts = .ok lang) (hkind : s.kind ≠ .none) :
    ((s.menu lang).map (·.label)).Nodup := by
  obtain ⟨toggles, hmenu, -, hcases⟩ := menu_eq hkind lang
  rw [hmenu]
  refine nodup_labels ?_
  rcases hcases with ⟨hclass, rfl⟩ | ⟨-, rfl⟩ | ⟨-, rfl⟩
  · have hnames : s.visibilityNames lang = lang.classVisibilities := by
      rw [visibilityNames, hclass, if_pos rfl, List.append_nil]
      rfl
    rw [hnames]
    exact classToggles_labelsApart h
  · exact ⟨List.nodup_nil, fun _ hl => absurd hl List.not_mem_nil⟩
  · exact memberToggles_labelsApart h _

/-- **The visibilities of a menu are complete, without repetition, and in order.** For every table
    and every declaration of a kind that can be edited, the entries that change the visibility have
    each name of the table, for members also each access name of the user's own, that is not empty
    and not the present visibility exactly once, and no other name. Their sort index grows, and they
    come in the access order, the names it does not list behind the others in the order of the
    table. In a table that can be built all labels of the menu are different, and there is always an
    entry. -/
theorem menu_visibilityFamily (s : Inspection) (hkind : s.kind ≠ .none) :
    (∀ lang : Language,
      let family := (s.menu lang).filter (·.job == .changeAccess)
      (∀ v : Text, (family.map (·.visibility)).count v
        = if (v ∈ lang.visibilities s.kind ∨ s.kind ≠ .classDecl ∧ v ∈ lang.customAccess) ∧
            v ≠ [] ∧ v ≠ s.visibility then 1 else 0) ∧
      (family.Pairwise fun a c => a.sortIndex < c.sortIndex) ∧
      family.Pairwise fun a c =>
        lang.Precedes (s.visibilityNames lang) a.visibility c.visibility) ∧
    ∀ (name base : Text) (opts : LanguageOptions) (lang : Language),
      Language.build name base opts = .ok lang →
      ((s.menu lang).map (·.label)).Nodup ∧ s.menu lang ≠ [] := by
  refine ⟨fun lang => ?_, fun name base opts lang hbuild => ⟨nodup_menu_labels hbuild hkind, ?_⟩⟩
  · simp only [filter_menu hkind]
    refine ⟨fun v => ?_, s.visibilityActions_increasing lang, s.visibilityActions_ordered lang⟩
    have hnames : v ∈ s.visibilityNames lang ↔
        v ∈ lang.visibilities s.kind ∨ s.kind ≠ .classDecl ∧ v ∈ lang.customAccess := by
      by_cases hclass : s.kind = .classDecl <;> simp [visibilityNames, hclass]
    simp only [count_visibilityActions, hnames]
  · obtain ⟨v, hv, w, hw, hvne, hwne, hvw⟩ := Language.build_visibilities hbuild s.kind
    exact menu_ne_nil hkind hv hw hvne hwne hvw

/-- A private static method of a class. -/
def staticMethod : Inspection where
  found :=
    { enclosing :=
        { declaration := { name := utf8 "A", lineFrom := 0, lineTo := 2 }, members := [] }
      member := some { name := utf8 "f", lineFrom := 1, lineTo := 1, flags := .function } }
  kind := .method
  header := ⟨1, 0, 9⟩
  visibility := utf8 "private"
  present := [.static]

/-- A table with repeated and empty names, and an order that lists an access name twice. -/
def crowdedTable : Language :=
  { Language.actionScript3 {} with
    memberVisibilities := [utf8 "public", [], utf8 "private", utf8 "internal", utf8 "public"]
    customAccess := [utf8 "ns", utf8 "internal", utf8 "mine", utf8 "ns"]
    accessOrder := [utf8 "mine", utf8 "private", utf8 "mine", utf8 "public"] }

/-- Listed names come first, and a name that is met twice keeps its first place. -/
theorem menu_visibilityFamily_crowded :
    staticMethod.kind ≠ .none ∧
    ((staticMethod.menu crowdedTable).filter (·.job == .changeAccess)).map
        (fun a => (a.visibility, a.sortIndex))
      = [(utf8 "mine", 0), (utf8 "public", 3), (utf8 "internal", 7), (utf8 "ns", 9)] ∧
    ((staticMethod.menu crowdedTable).filter (·.job == .changeAccess)).Pairwise (fun a c =>
      crowdedTable.Precedes (staticMethod.visibilityNames crowdedTable) a.visibility
        c.visibility) ∧
    ((staticMethod.menu (Language.haxe {})).map (·.label)).Nodup := by
  have h := menu_visibilityFamily staticMethod (by decide)
  exact ⟨by decide, by decide, (h.1 crowdedTable).2.2,
    (h.2 [] (utf8 "haxe") {} (Language.haxe {}) (by decide)).1⟩

end Inspection

end ModifierToggle
