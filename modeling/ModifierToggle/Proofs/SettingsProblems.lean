import ModifierToggle.Proofs.SettingsNames

set_option autoImplicit false

/-! # Problems of settings, one by one

Entries of the settings are checked in their order, and the names seen so far are carried along.
`Settings.Fails` says of one entry, given those before it, which checks it fails and what is
reported. The problems of the settings are the reports of all failed checks, each of them once and
in order (`Settings.exists_failures`).

Settings without problems have a table for every language. What is not checked is that access names
are well-formed, without which there is no registry (`Settings.problems_exact`). -/

namespace ModifierToggle.Settings

/-! ## Checks -/

/-- What is asked of an entry: a name, that no entry before it goes by, a table to start from, and
    that its file patterns are patterns. -/
inductive Check where
  | named
  | namedOnce
  | base
  | pattern (k : Nat)
  deriving Repr, DecidableEq

/-- The place of a check in the order in which checks are made. -/
def Check.rank : Check → Nat
  | .named => 0
  | .namedOnce => 1
  | .base => 2
  | .pattern k => 3 + k

/-- An entry fails a check, where `before` are the entries before it, and this is the problem. If it
    has no name, nothing else is asked. -/
inductive Fails (m : Matcher) (before : List (Option LanguageSettings)) (e : LanguageSettings) :
    Check → Problem → Prop where
  | named (h : e.name = []) : Fails m before e .named (.missingName before.length)
  | namedOnce (hname : e.name ≠ []) {e' : LanguageSettings} (he' : some e' ∈ before)
      (hname' : e'.name ≠ []) (hsame : e'.name.nameKey = e.name.nameKey) :
      Fails m before e .namedOnce (.declaredTwice e.name)
  | base (hname : e.name ≠ []) (h : e.tableName.nameKey ∉ Language.baseNames) :
      Fails m before e .base (.unknownBase e.name e.tableName)
  | pattern (hname : e.name ≠ []) {k : Nat} {pattern : Text} (hk : e.files[k]? = some pattern)
      (h : m.isPattern pattern = false) : Fails m before e (.pattern k) (.badPattern e.name pattern)

/-- A check that an entry fails, with the number of the entry. -/
structure Failure where
  index : Nat
  check : Check
  problem : Problem

/-- One failure comes before another: entry by entry, and check by check. -/
def Failure.Before (f g : Failure) : Prop :=
  f.index < g.index ∨ f.index = g.index ∧ f.check.rank < g.check.rank

/-- A failure of the settings. -/
def FailsAt (m : Matcher) (s : Settings) (f : Failure) : Prop :=
  ∃ e, s.languages[f.index]? = some (some e) ∧
    Fails m (s.languages.take f.index) e f.check f.problem

/-! ## One entry -/

/-- The names that the entries before have taken up, in the form in which they are compared. -/
def InUse (seen : List Text) (before : List (Option LanguageSettings)) : Prop :=
  ∀ key, key ∈ seen ↔ ∃ e, some e ∈ before ∧ e.name ≠ [] ∧ e.name.nameKey = key

/-- The checks that one entry fails, each with its problem and in the order of the checks. -/
structure Reports (m : Matcher) (found : List (Check × Problem))
    (before : List (Option LanguageSettings)) (entry : Option LanguageSettings) : Prop where
  sorted : found.Pairwise fun f g => f.1.rank < g.1.rank
  mem_iff : ∀ c p, (c, p) ∈ found ↔ ∃ e, entry = some e ∧ Fails m before e c p

section

variable {m : Matcher} {seen : List Text} {before : List (Option LanguageSettings)}
  {e : LanguageSettings}

/-- The file patterns of an entry that are no patterns, each with its number. -/
def badPatterns (m : Matcher) (e : LanguageSettings) : List (Check × Problem) :=
  (e.files.zipIdx.filter fun f => !m.isPattern f.1).map fun f =>
    (.pattern f.2, .badPattern e.name f.1)

theorem map_badPatterns (m : Matcher) (e : LanguageSettings) :
    (badPatterns m e).map (·.2) = (e.files.filter (!m.isPattern ·)).map (.badPattern e.name) := by
  have hfiles : (e.files.zipIdx.filter fun f => !m.isPattern f.1).map (·.1)
      = e.files.filter (!m.isPattern ·) := by
    conv_rhs => rw [← List.zipIdx_map_fst 0 e.files, List.filter_map]
    rfl
  rw [badPatterns, List.map_map, ← hfiles, List.map_map]
  rfl

theorem sorted_badPatterns (m : Matcher) (e : LanguageSettings) :
    (badPatterns m e).Pairwise fun f g => f.1.rank < g.1.rank := by
  have hnumbers : e.files.zipIdx.Pairwise fun f g => f.2 < g.2 := by
    rw [← List.pairwise_map (f := Prod.snd), List.zipIdx_map_snd]
    exact List.pairwise_lt_range'
  rw [badPatterns, List.pairwise_map]
  exact (hnumbers.filter _).imp fun h => Nat.add_lt_add_left h 3

theorem mem_badPatterns {c : Check} {p : Problem} :
    (c, p) ∈ badPatterns m e ↔ ∃ k pattern, e.files[k]? = some pattern ∧
      m.isPattern pattern = false ∧ c = .pattern k ∧ p = .badPattern e.name pattern := by
  simp only [badPatterns, List.mem_map, List.mem_filter, Prod.exists, List.mem_zipIdx_iff_getElem?,
    Bool.not_eq_true', Prod.mk.injEq, and_assoc]
  constructor
  · rintro ⟨pattern, k, hk, h, rfl, rfl⟩
    exact ⟨k, pattern, hk, h, rfl, rfl⟩
  · rintro ⟨k, pattern, hk, h, rfl, rfl⟩
    exact ⟨pattern, k, hk, h, rfl, rfl⟩

/-- The failures of a named entry, where `seen` are the names in use. -/
def failuresOf (m : Matcher) (seen : List Text) (e : LanguageSettings) : List (Check × Problem) :=
  (if seen.contains e.name.nameKey then [(.namedOnce, .declaredTwice e.name)] else [])
    ++ (if Language.baseNames.contains e.tableName.nameKey then []
        else [(.base, .unknownBase e.name e.tableName)])
    ++ badPatterns m e

theorem map_failuresOf (m : Matcher) (seen : List Text) (e : LanguageSettings) :
    (failuresOf m seen e).map (·.2) = problemsOf m seen e := by
  rw [failuresOf, problemsOf, List.map_append, List.map_append, map_badPatterns]
  cases seen.contains e.name.nameKey <;>
    cases Language.baseNames.contains e.tableName.nameKey <;> rfl

theorem sorted_failuresOf (m : Matcher) (seen : List Text) (e : LanguageSettings) :
    (failuresOf m seen e).Pairwise fun f g => f.1.rank < g.1.rank := by
  have hpatterns : ∀ f ∈ badPatterns m e, 2 < f.1.rank := by
    rintro ⟨c, p⟩ hf
    obtain ⟨k, pattern, -, -, rfl, -⟩ := mem_badPatterns.1 hf
    exact Nat.lt_add_right k (Nat.lt_succ_self 2)
  have hall : (failuresOf m seen e).Sublist ((.namedOnce, .declaredTwice e.name)
      :: (.base, .unknownBase e.name e.tableName) :: badPatterns m e) := by
    unfold failuresOf
    split <;> split <;> simp
  refine List.Pairwise.sublist hall (List.pairwise_cons.2 ⟨fun f hf => ?_, List.pairwise_cons.2
    ⟨hpatterns, sorted_badPatterns m e⟩⟩)
  rcases List.mem_cons.1 hf with rfl | hf
  · exact Nat.lt_succ_self 1
  · exact Nat.lt_of_succ_lt (hpatterns f hf)

theorem mem_failuresOf (hseen : InUse seen before) (hname : e.name ≠ []) {c : Check} {p : Problem} :
    (c, p) ∈ failuresOf m seen e ↔ Fails m before e c p := by
  rw [failuresOf, List.mem_append, List.mem_append, mem_badPatterns]
  constructor
  · rintro ((h | h) | ⟨k, pattern, hk, h, rfl, rfl⟩)
    · split at h
      · next hused =>
        obtain ⟨e', he', hname', hsame⟩ := (hseen _).1 (List.contains_iff_mem.1 hused)
        cases List.mem_singleton.1 h
        exact .namedOnce hname he' hname' hsame
      · exact absurd h List.not_mem_nil
    · split at h
      · exact absurd h List.not_mem_nil
      · next hbase =>
        cases List.mem_singleton.1 h
        exact .base hname fun hmem => hbase (List.contains_iff_mem.2 hmem)
    · exact .pattern hname hk h
  · rintro (h | ⟨-, he', hname', hsame⟩ | ⟨-, hbase⟩ | ⟨-, hk, h⟩)
    · exact absurd h hname
    · refine Or.inl (Or.inl ?_)
      rw [if_pos (List.contains_iff_mem.2 ((hseen _).2 ⟨_, he', hname', hsame⟩))]
      exact List.mem_singleton.2 rfl
    · refine Or.inl (Or.inr ?_)
      rw [if_neg fun hmem => hbase (List.contains_iff_mem.1 hmem)]
      exact List.mem_singleton.2 rfl
    · exact Or.inr ⟨_, _, hk, h, rfl, rfl⟩

/-- An entry without a name, or a null one, takes no name up. -/
theorem InUse.append (hseen : InUse seen before) {entry : Option LanguageSettings}
    (hnone : ∀ e, entry = some e → e.name = []) : InUse seen (before ++ [entry]) := by
  intro key
  rw [hseen key]
  constructor
  · rintro ⟨e, he, h⟩
    exact ⟨e, List.mem_append_left _ he, h⟩
  · rintro ⟨e, he, hname, h⟩
    rcases List.mem_append.1 he with he | he
    · exact ⟨e, he, hname, h⟩
    · exact absurd (hnone e (List.mem_singleton.1 he).symm) hname

theorem InUse.append_named (hseen : InUse seen before) (hname : e.name ≠ []) :
    InUse (e.name.nameKey :: seen) (before ++ [some e]) := by
  intro key
  rw [List.mem_cons, hseen key]
  constructor
  · rintro (rfl | ⟨e', he', h⟩)
    · exact ⟨e, List.mem_append_right _ (List.mem_singleton.2 rfl), hname, rfl⟩
    · exact ⟨e', List.mem_append_left _ he', h⟩
  · rintro ⟨e', he', hname', rfl⟩
    rcases List.mem_append.1 he' with he' | he'
    · exact Or.inr ⟨e', he', hname', rfl⟩
    · cases List.mem_singleton.1 he'
      exact Or.inl rfl

/-- One step of the check: the problems of an entry, and the names that are in use behind it. -/
theorem problemsFrom_cons (hseen : InUse seen before) (entry : Option LanguageSettings)
    (rest : List (Option LanguageSettings)) :
    ∃ found seen', Reports m found before entry ∧ InUse seen' (before ++ [entry]) ∧
      problemsFrom m seen before.length (entry :: rest)
        = found.map (·.2) ++ problemsFrom m seen' (before ++ [entry]).length rest := by
  rw [List.length_append, List.length_singleton]
  cases entry with
  | none => exact ⟨[], seen, ⟨.nil, by simp⟩, hseen.append (by simp), rfl⟩
  | some e =>
    rw [problemsFrom]
    by_cases hname : e.name = []
    · refine ⟨[(.named, .missingName before.length)], seen, ⟨List.pairwise_singleton .., ?_⟩,
        hseen.append fun e' he' => ?_, by simp [hname]⟩
      · intro c p
        rw [List.mem_singleton, Prod.mk.injEq]
        constructor
        · rintro ⟨rfl, rfl⟩
          exact ⟨e, rfl, .named hname⟩
        · rintro ⟨_, ⟨⟩, hfails⟩
          cases hfails with
          | named _ => exact ⟨rfl, rfl⟩
          | namedOnce h _ _ _ | base h _ | pattern h _ _ => exact absurd hname h
      · cases he'
        exact hname
    · refine ⟨failuresOf m seen e, e.name.nameKey :: seen,
        ⟨sorted_failuresOf m seen e, fun c p => ?_⟩, hseen.append_named hname, ?_⟩
      · rw [mem_failuresOf hseen hname]
        refine ⟨fun h => ⟨e, rfl, h⟩, ?_⟩
        rintro ⟨_, ⟨⟩, h⟩
        exact h
      · rw [if_neg (by simpa using hname), map_failuresOf]

/-! ## All entries -/

/-- The run of the check over the entries from some place on. -/
theorem exists_failuresFrom (hseen : InUse seen before) (rest : List (Option LanguageSettings)) :
    ∃ found : List Failure, problemsFrom m seen before.length rest = found.map (·.problem) ∧
      found.Pairwise Failure.Before ∧ ∀ f, f ∈ found ↔ before.length ≤ f.index ∧
        ∃ e, (before ++ rest)[f.index]? = some (some e) ∧
          Fails m ((before ++ rest).take f.index) e f.check f.problem := by
  induction rest generalizing seen before with
  | nil =>
    refine ⟨[], rfl, .nil, fun f => ⟨fun h => absurd h List.not_mem_nil, ?_⟩⟩
    rintro ⟨hle, e, he, -⟩
    rw [List.append_nil, List.getElem?_eq_none hle] at he
    cases he
  | cons entry rest ih =>
    obtain ⟨first, seen', hfirst, hseen', heq⟩ := problemsFrom_cons hseen entry rest
    obtain ⟨found, hfound, hsorted, hmem⟩ := ih hseen'
    have hlanguages : before ++ [entry] ++ rest = before ++ entry :: rest := by simp
    have hlength : (before ++ [entry]).length = before.length + 1 := by simp
    rw [hlanguages, hlength] at hmem
    have hentry : (before ++ entry :: rest)[before.length]? = some entry := by simp
    -- the failures of this entry stand before those of the entries behind it
    let here : List Failure := first.map fun f => ⟨before.length, f.1, f.2⟩
    have hhere : ∀ f, f ∈ here ↔ f.index = before.length ∧ (f.check, f.problem) ∈ first := by
      rintro ⟨i, c, p⟩
      simp only [here, List.mem_map, Prod.exists, Failure.mk.injEq]
      constructor
      · rintro ⟨c', p', h, rfl, rfl, rfl⟩
        exact ⟨rfl, h⟩
      · rintro ⟨rfl, h⟩
        exact ⟨c, p, h, rfl, rfl, rfl⟩
    refine ⟨here ++ found, ?_, List.pairwise_append.2 ⟨?_, hsorted, ?_⟩, fun f => ?_⟩
    · rw [heq, hfound, List.map_append, List.map_map]
      rfl
    · exact List.pairwise_map.2 (hfirst.sorted.imp fun h => Or.inr ⟨rfl, h⟩)
    · intro f hf g hg
      exact Or.inl (((hhere f).1 hf).1 ▸ ((hmem g).1 hg).1)
    · rw [List.mem_append, hhere, hmem, hfirst.mem_iff]
      constructor
      · rintro (⟨hindex, e, rfl, hfails⟩ | ⟨hle, h⟩)
        · rw [hindex, List.take_left]
          exact ⟨Nat.le_refl _, e, hentry, hfails⟩
        · exact ⟨Nat.le_of_succ_le hle, h⟩
      · rintro ⟨hle, e, he, hfails⟩
        rcases Nat.eq_or_lt_of_le hle with hindex | hlt
        · rw [← hindex, List.take_left] at hfails
          rw [← hindex, hentry] at he
          exact Or.inl ⟨hindex.symm, e, Option.some.inj he, hfails⟩
        · exact Or.inr ⟨hlt, e, he, hfails⟩

end

/-- The problems of the settings are the reports of the failed checks, each once and in order. -/
theorem exists_failures (m : Matcher) (s : Settings) :
    ∃ found : List Failure, s.problems m = found.map (·.problem) ∧ found.Pairwise Failure.Before ∧
      ∀ f, f ∈ found ↔ s.FailsAt m f := by
  have hnone : InUse [] [] := by simp [InUse]
  obtain ⟨found, hfound, hsorted, hmem⟩ := exists_failuresFrom hnone s.languages
  refine ⟨found, hfound, hsorted, fun f => ?_⟩
  rw [hmem, List.nil_append]
  exact and_iff_right (Nat.zero_le _)

/-! ## Tables for settings without problems -/

theorem exists_of_mapM_eq_error {ε α β : Type} {f : α → Except ε β} {xs : List α} {err : ε}
    (h : xs.mapM f = .error err) : ∃ x ∈ xs, f x = .error err := by
  induction xs with
  | nil => cases h
  | cons x xs ih =>
    rw [List.mapM_cons] at h
    cases hx : f x with
    | error cause =>
      rw [hx] at h
      cases h
      exact ⟨x, List.mem_cons_self, hx⟩
    | ok y =>
      rw [hx] at h
      cases hxs : xs.mapM f with
      | error cause =>
        rw [hxs] at h
        cases h
        obtain ⟨x', hx', herr⟩ := ih hxs
        exact ⟨x', List.mem_cons_of_mem _ hx', herr⟩
      | ok ys =>
        rw [hxs] at h
        cases h

/-- All that is in the way of a table for a sound language is an access name. -/
theorem eq_of_table_eq_error {m : Matcher} {s : Settings} {e : LanguageSettings} (he : e.Sound m)
    {err : TableError} (h : s.table e = .error err) :
    ¬ e.AccessReadable ∧ err = ⟨e.name, .breakdown⟩ := by
  constructor
  · intro hreadable
    obtain ⟨t, ht⟩ := (exists_table_iff he).2 hreadable
    rw [h] at ht
    cases ht
  · have hbase : (Language.base? e.tableName.nameKey).isSome = true := by
      rcases List.mem_pair.1 he.base with h | h <;> rw [h] <;> rfl
    obtain ⟨base, hbase⟩ := Option.isSome_iff_exists.1 hbase
    unfold table Language.build at h
    rw [hbase] at h
    simp only at h
    split at h
    · cases h
    · cases h
      rfl

theorem exists_of_registry_eq_error {m : Matcher} {s : Settings} (hvalid : s.problems m = [])
    {err : TableError} (h : s.registry = .error err) :
    ∃ e ∈ s.entries, ¬ e.AccessReadable ∧ err = ⟨e.name, .breakdown⟩ := by
  have htables : s.entries.mapM s.table = .error err := by
    unfold registry at h
    cases htables : s.entries.mapM s.table with
    | error cause =>
      rw [htables] at h
      cases h
      rfl
    | ok tables =>
      rw [htables] at h
      cases h
  obtain ⟨e, he, herr⟩ := exists_of_mapM_eq_error htables
  exact ⟨e, he, eq_of_table_eq_error (((problems_eq_nil_iff m s).1 hvalid).1 e he) herr⟩

/-- **Problems are exactly the failed checks.** There are none if every language has a name that no
    other has, a table to start from and patterns for its files. Otherwise each failed check is one
    problem, entry by entry and check by check. Settings without problems have a registry exactly if
    all access names can be made recognisable; it holds the tables that are built for the languages,
    in their order, and where there is none, it is such a name that breaks it. All of this holds
    however file patterns are read. -/
theorem problems_exact (m : Matcher) (s : Settings) :
    (s.problems m = [] ↔
      (∀ e ∈ s.entries, e.Sound m) ∧ s.entries.Pairwise LanguageSettings.NamedApart) ∧
    (∃ found : List Failure, s.problems m = found.map (·.problem) ∧
      found.Pairwise Failure.Before ∧ ∀ f, f ∈ found ↔ s.FailsAt m f) ∧
    (s.problems m = [] →
      ((∃ r, s.registry = .ok r) ↔ ∀ e ∈ s.entries, e.AccessReadable) ∧
      (∀ r, s.registry = .ok r ↔ List.Forall₂
        (fun e t => Language.build e.name e.tableName (s.options e) = .ok t)
        s.entries r.languages) ∧
      ∀ err, s.registry = .error err →
        ∃ e ∈ s.entries, ¬ e.AccessReadable ∧ err = ⟨e.name, .breakdown⟩) := by
  refine ⟨problems_eq_nil_iff m s, exists_failures m s, fun hvalid => ⟨exists_registry_iff hvalid,
    fun r => ?_, fun err h => exists_of_registry_eq_error hvalid h⟩⟩
  simp only [registry_eq_ok_iff, table_eq_ok_iff]

/-- Languages with names in mixed case. The last one gives an access name that is not well-formed,
    but Haxe takes none. -/
def soundSettings : Settings :=
  { languages :=
      [some { name := utf8 "Flex ", base := utf8 " AS3", customAccess := [utf8 "mx_internal"],
              files := [utf8 "**/*.\x7bas,mxml\x7d"] },
       none,
       some { name := utf8 "haxe", customAccess := [[0xED, 0xA0, 0x80]] }] }

theorem problems_exact_sound :
    soundSettings.problems Glob.matcher = [] ∧ ∃ r, soundSettings.registry = .ok r ∧ List.Forall₂
      (fun e t => Language.build e.name e.tableName (soundSettings.options e) = .ok t)
      soundSettings.entries r.languages := by
  have hvalid : soundSettings.problems Glob.matcher = [] := by decide +kernel
  obtain ⟨hregistry, htables, -⟩ := (problems_exact Glob.matcher soundSettings).2.2 hvalid
  obtain ⟨r, hr⟩ := hregistry.2 (by unfold LanguageSettings.AccessReadable; decide +kernel)
  exact ⟨hvalid, r, hr, (htables r).1 hr⟩

/-- An access name that is not well-formed: a surrogate on its own. -/
def brokenAccess : Settings :=
  { languages := [some { name := utf8 "as3", customAccess := [[0xED, 0xA0, 0x80]] }] }

/-- No problem is found, and there is no registry. -/
theorem registry_breaksDown :
    brokenAccess.problems Glob.matcher = [] ∧
      brokenAccess.registry = .error ⟨utf8 "as3", .breakdown⟩ := by
  decide +kernel

-- The first entry has no name, so that it is not asked for its base; a blank name is one.
example :
    problems Glob.matcher
      { languages :=
          [some { base := utf8 "c" }, none, some { name := utf8 "Haxe", files := [utf8 "["] },
           some { name := utf8 "haxe ", base := utf8 "c",
                  files := [utf8 "*", utf8 "[", utf8 "\x7b"] },
           some { name := utf8 " " }] }
      = [.missingName 0, .badPattern (utf8 "Haxe") (utf8 "["), .declaredTwice (utf8 "haxe "),
         .unknownBase (utf8 "haxe ") (utf8 "c"), .badPattern (utf8 "haxe ") (utf8 "["),
         .badPattern (utf8 "haxe ") (utf8 "\x7b"), .unknownBase (utf8 " ") (utf8 " ")] := by
  decide +kernel

end ModifierToggle.Settings
