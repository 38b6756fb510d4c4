import Mathlib.Data.List.Forall2
import Mathlib.Data.List.Pairwise
import ModifierToggle.Proofs.Tables
import ModifierToggle.Settings.Basic

set_option autoImplicit false

/-! # Languages under their own names

Settings without problems name every language, name no two of them alike, and start each of them
from a table there is (`Settings.problems_eq_nil_iff`). A table can then be built for each of them,
unless an access name is not well-formed (`Settings.exists_registry_iff`), and the tables stand in
the order of the languages.

A language whose name is blank has a table under the name of the table it starts from. So it cannot
be looked up by its own name, and it can hide a language with that other name behind it. Apart from
that, looking up the name of a language gives its table (`Settings.lookup?_ownName`). -/

namespace ModifierToggle

/-! ## Settings without problems -/

/-- What is asked of the settings of one language, whatever the others are. -/
structure LanguageSettings.Sound (m : Matcher) (e : LanguageSettings) : Prop where
  named : e.name ≠ []
  base : e.tableName.nameKey ∈ Language.baseNames
  patterns : ∀ pattern ∈ e.files, m.isPattern pattern = true

/-- Two languages go by different names. -/
def LanguageSettings.NamedApart (e e' : LanguageSettings) : Prop :=
  e.name.nameKey ≠ e'.name.nameKey

instance : Std.Symm LanguageSettings.NamedApart := ⟨fun _ _ h => h.symm⟩

namespace Settings

variable {m : Matcher}

theorem problemsOf_eq_nil_iff {seen : List Text} {e : LanguageSettings} (hname : e.name ≠ []) :
    problemsOf m seen e = [] ↔ e.Sound m ∧ e.name.nameKey ∉ seen := by
  have hpatterns : ((e.files.filter (!m.isPattern ·)).map (Problem.badPattern e.name) = [])
      ↔ ∀ pattern ∈ e.files, m.isPattern pattern = true := by
    simp [List.filter_eq_nil_iff]
  rw [problemsOf, List.append_eq_nil_iff, List.append_eq_nil_iff, hpatterns]
  constructor
  · rintro ⟨⟨hseen, hbase⟩, hfiles⟩
    refine ⟨⟨hname, ?_, hfiles⟩, ?_⟩
    · simpa using hbase
    · simpa using hseen
  · rintro ⟨⟨-, hbase, hfiles⟩, hseen⟩
    refine ⟨⟨?_, ?_⟩, hfiles⟩
    · simpa using hseen
    · simpa using hbase

theorem problemsFrom_eq_nil_iff {seen : List Text} {i : Nat}
    {languages : List (Option LanguageSettings)} :
    problemsFrom m seen i languages = [] ↔
      (∀ e ∈ languages.filterMap id, e.Sound m ∧ e.name.nameKey ∉ seen) ∧
        (languages.filterMap id).Pairwise LanguageSettings.NamedApart := by
  induction languages generalizing seen i with
  | nil => simp [problemsFrom]
  | cons entry rest ih =>
    cases entry with
    | none => simpa [problemsFrom] using ih
    | some e =>
      rw [problemsFrom]
      by_cases hname : e.name = []
      · have hunsound : ¬ e.Sound m := fun h => h.named hname
        simp [hname, hunsound]
      · have hentries : (some e :: rest).filterMap id = e :: rest.filterMap id := rfl
        rw [if_neg (by simpa using hname), List.append_eq_nil_iff, problemsOf_eq_nil_iff hname, ih,
          hentries, List.forall_mem_cons, List.pairwise_cons]
        constructor
        · rintro ⟨he, hrest, hapart⟩
          refine ⟨⟨he, fun e' he' => ⟨(hrest e' he').1, ?_⟩⟩, fun e' he' h => ?_, hapart⟩
          · exact fun h => (hrest e' he').2 (List.mem_cons_of_mem _ h)
          · exact (hrest e' he').2 (h ▸ List.mem_cons_self)
        · rintro ⟨⟨he, hrest⟩, hfirst, hapart⟩
          refine ⟨he, fun e' he' => ⟨(hrest e' he').1, fun h => ?_⟩, hapart⟩
          rcases List.mem_cons.1 h with h | h
          · exact hfirst e' he' h.symm
          · exact (hrest e' he').2 h

/-- Settings have no problems if every language is sound and no two of them go by one name. -/
theorem problems_eq_nil_iff (m : Matcher) (s : Settings) :
    s.problems m = [] ↔
      (∀ e ∈ s.entries, e.Sound m) ∧ s.entries.Pairwise LanguageSettings.NamedApart := by
  simp [problems, problemsFrom_eq_nil_iff, entries]

/-! ## The table of one language -/

end Settings

namespace LanguageSettings

/-- The name under which the table of a language is kept. -/
def tableKey (e : LanguageSettings) : Text :=
  if e.name.nameKey = [] then e.tableName.nameKey else e.name.nameKey

/-- The access names of a language can be made recognisable. Haxe has none. -/
def AccessReadable (e : LanguageSettings) : Prop :=
  e.tableName.nameKey = utf8 "as3" → ∀ v ∈ e.customAccess, v.trim.isWellFormed = true

end LanguageSettings

namespace Language

theorem haxe_isWellFormed (opts : LanguageOptions) :
    (haxe opts).allVisibilities.all Text.isWellFormed = true := by
  show (haxe {}).allVisibilities.all Text.isWellFormed = true
  decide

theorem actionScript3_isWellFormed_iff (opts : LanguageOptions) :
    (actionScript3 opts).allVisibilities.all Text.isWellFormed = true ↔
      ∀ v ∈ opts.customAccess, v.trim.isWellFormed = true := by
  have hown : ∀ v ∈ (actionScript3 opts).memberVisibilities
      ++ (actionScript3 opts).classVisibilities, v.isWellFormed = true := by
    show ∀ v ∈ (actionScript3 {}).memberVisibilities ++ (actionScript3 {}).classVisibilities,
      v.isWellFormed = true
    decide
  have hcustom : ∀ v, v ∈ (actionScript3 opts).customAccess ↔
      (∃ v' ∈ opts.customAccess, v'.trim = v) ∧ v ≠ [] := by
    intro v
    show v ∈ distinctNames opts.customAccess ↔ _
    simp [distinctNames, List.mem_eraseDups]
  rw [List.all_eq_true]
  constructor
  · intro h v hv
    by_cases hempty : v.trim = []
    · rw [hempty]
      rfl
    · exact h _ (mem_allVisibilities.2
        ⟨Or.inr (Or.inr ((hcustom _).2 ⟨⟨v, hv, rfl⟩, hempty⟩)), hempty⟩)
  · intro h v hv
    rcases (mem_allVisibilities.1 hv).1 with hv | hv | hv
    · exact hown v (List.mem_append_left _ hv)
    · exact hown v (List.mem_append_right _ hv)
    · obtain ⟨⟨v', hv', rfl⟩, -⟩ := (hcustom v).1 hv
      exact h v' hv'

end Language

namespace Settings

variable {s : Settings} {e : LanguageSettings} {t : Language}

theorem table_eq_ok_iff :
    s.table e = .ok t ↔ Language.build e.name e.tableName (s.options e) = .ok t := by
  unfold table
  cases Language.build e.name e.tableName (s.options e) with
  | error cause => simp [Except.mapError]
  | ok lang => simp [Except.mapError]

/-- The table of a language is kept under its name, or under that of the table it starts from. -/
theorem name_of_table (h : s.table e = .ok t) : t.name = e.tableKey := by
  rw [table_eq_ok_iff] at h
  unfold Language.build at h
  split at h
  · cases h
  · next table htable =>
    have hname : (table (s.options e)).name = e.tableName.nameKey := by
      unfold Language.base? at htable
      split at htable
      · next hbase =>
        cases htable
        exact hbase.symm
      · split at htable
        · next hbase =>
          cases htable
          exact hbase.symm
        · cases htable
    simp only at h
    split at h
    · cases h
      unfold LanguageSettings.tableKey
      by_cases hblank : e.name.nameKey = []
      · simp [hblank, hname]
      · simp [hblank]
    · cases h

/-- A sound language has a table exactly if its access names can be made recognisable. -/
theorem exists_table_iff {m : Matcher} (he : e.Sound m) :
    (∃ t, s.table e = .ok t) ↔ e.AccessReadable := by
  simp only [table_eq_ok_iff]
  unfold Language.build
  rcases List.mem_pair.1 he.base with hbase | hbase
  · have htable : Language.base? e.tableName.nameKey = some Language.haxe := by
      rw [hbase]
      rfl
    have hreadable : e.AccessReadable := by
      intro h
      rw [hbase] at h
      exact absurd h (by decide)
    simp [htable, Language.haxe_isWellFormed, hreadable]
  · have htable : Language.base? e.tableName.nameKey = some Language.actionScript3 := by
      rw [hbase]
      rfl
    have hreadable : e.AccessReadable ↔ ∀ v ∈ e.customAccess, v.trim.isWellFormed = true :=
      ⟨fun h => h hbase, fun h _ => h⟩
    have hwords :
        (Language.actionScript3 (s.options e)).allVisibilities.all Text.isWellFormed = true
          ↔ ∀ v ∈ e.customAccess, v.trim.isWellFormed = true :=
      Language.actionScript3_isWellFormed_iff (s.options e)
    rw [htable, hreadable]
    by_cases hall : (Language.actionScript3 (s.options e)).allVisibilities.all Text.isWellFormed
    · simpa [hall] using hwords.1 hall
    · simp [hall, ← hwords]

end Settings

/-! ## The tables of all languages -/

theorem mapM_eq_ok_iff {ε α β : Type} {f : α → Except ε β} {xs : List α} {ys : List β} :
    xs.mapM f = .ok ys ↔ List.Forall₂ (fun x y => f x = .ok y) xs ys := by
  induction xs generalizing ys with
  | nil => cases ys <;> simp [pure, Except.pure]
  | cons x xs ih =>
    rw [List.mapM_cons]
    cases hx : f x with
    | error cause => cases ys <;> simp [bind, Except.bind, hx]
    | ok y =>
      cases hxs : xs.mapM f with
      | error cause => cases ys <;> simp [bind, Except.bind, ← ih, hx, hxs]
      | ok rest => cases ys <;> simp [bind, Except.bind, pure, Except.pure, ← ih, hx, hxs]

theorem exists_forall₂_iff {α β : Type} {R : α → β → Prop} {xs : List α} :
    (∃ ys, List.Forall₂ R xs ys) ↔ ∀ x ∈ xs, ∃ y, R x y := by
  induction xs with
  | nil => exact ⟨fun _ x hx => absurd hx List.not_mem_nil, fun _ => ⟨[], .nil⟩⟩
  | cons x xs ih =>
    rw [List.forall_mem_cons, ← ih]
    constructor
    · rintro ⟨_, _ | ⟨hxy, hrest⟩⟩
      exact ⟨⟨_, hxy⟩, _, hrest⟩
    · rintro ⟨⟨y, hxy⟩, ys, hrest⟩
      exact ⟨y :: ys, .cons hxy hrest⟩

namespace Settings

variable {m : Matcher} {s : Settings} {r : Registry}

theorem registry_eq_ok_iff :
    s.registry = .ok r ↔ List.Forall₂ (fun e t => s.table e = .ok t) s.entries r.languages := by
  rw [← mapM_eq_ok_iff, registry]
  cases s.entries.mapM s.table with
  | error cause => simp [Except.map]
  | ok tables =>
    cases r
    simp [Except.map]

/-- Settings without problems have a registry exactly if all access names can be made
    recognisable. -/
theorem exists_registry_iff (hvalid : s.problems m = []) :
    (∃ r, s.registry = .ok r) ↔ ∀ e ∈ s.entries, e.AccessReadable := by
  have hsound := ((problems_eq_nil_iff m s).1 hvalid).1
  calc (∃ r, s.registry = .ok r)
      ↔ ∃ tables, List.Forall₂ (fun e t => s.table e = .ok t) s.entries tables :=
        ⟨fun ⟨r, h⟩ => ⟨r.languages, registry_eq_ok_iff.1 h⟩,
          fun ⟨tables, h⟩ => ⟨⟨tables⟩, registry_eq_ok_iff.2 h⟩⟩
    _ ↔ ∀ e ∈ s.entries, ∃ t, s.table e = .ok t := exists_forall₂_iff
    _ ↔ ∀ e ∈ s.entries, e.AccessReadable :=
        forall₂_congr fun e he => exists_table_iff (hsound e he)

/-! ## Looking a language up -/

theorem exists_mem_of_forall₂ {α β : Type} {R : α → β → Prop} {xs : List α} {ys : List β}
    (h : List.Forall₂ R xs ys) {x : α} (hx : x ∈ xs) : ∃ y ∈ ys, R x y := by
  induction h with
  | nil => exact absurd hx List.not_mem_nil
  | cons hxy _ ih =>
    rcases List.mem_cons.1 hx with rfl | hx
    · exact ⟨_, List.mem_cons_self, hxy⟩
    · obtain ⟨y, hy, hxy⟩ := ih hx
      exact ⟨y, List.mem_cons_of_mem _ hy, hxy⟩

/-- A language is on its own under its name: the name is not blank, and no language above it goes by
    it for want of a name, unless it has the same table. -/
def OwnsName (s : Settings) (above : List LanguageSettings) (e : LanguageSettings) : Prop :=
  e.name.nameKey ≠ [] ∧ ∀ e' ∈ above, e'.name.nameKey = [] →
    e'.tableName.nameKey = e.name.nameKey → s.table e' = s.table e

section

variable {above : List LanguageSettings} {e : LanguageSettings} {tables : List Language}
  (htables : List.Forall₂ (fun e t => s.table e = .ok t) above tables)
  (hapart : ∀ e' ∈ above, e'.NamedApart e)

include htables hapart

/-- What stands above a language under its name is the table of a language with a blank name. -/
theorem exists_blank_of_find? {t : Language}
    (h : tables.find? (·.name == e.name.nameKey) = some t) :
    ∃ e' ∈ above, e'.name.nameKey = [] ∧ e'.tableName.nameKey = e.name.nameKey ∧
      s.table e' = .ok t := by
  have hname : t.name = e.name.nameKey := by simpa using List.find?_some h
  obtain ⟨e', he', htable⟩ := exists_mem_of_forall₂ htables.flip (List.mem_of_find?_eq_some h)
  have hkey : e'.tableKey = e.name.nameKey := (name_of_table htable).symm.trans hname
  unfold LanguageSettings.tableKey at hkey
  split at hkey
  · next hblank => exact ⟨e', he', hblank, hkey, htable⟩
  · exact absurd hkey (hapart e' he')

/-- There is at most one such language, so it is its table that is found. -/
theorem find?_eq_table_of_blank (habove : above.Pairwise LanguageSettings.NamedApart)
    {e' : LanguageSettings} (he' : e' ∈ above) (hblank : e'.name.nameKey = [])
    (hbase : e'.tableName.nameKey = e.name.nameKey) :
    ∃ t, tables.find? (·.name == e.name.nameKey) = some t ∧ s.table e' = .ok t := by
  obtain ⟨t', ht', htable'⟩ := exists_mem_of_forall₂ htables he'
  have hname : t'.name = e.name.nameKey := by
    rw [name_of_table htable', LanguageSettings.tableKey, if_pos hblank, hbase]
  cases hfind : tables.find? (·.name == e.name.nameKey) with
  | none => exact absurd hname (by simpa using List.find?_eq_none.1 hfind t' ht')
  | some t =>
    obtain ⟨e'', he'', hblank'', -, htable''⟩ := exists_blank_of_find? htables hapart hfind
    have hsame : e'' = e' := by
      by_contra hne
      exact habove.forall he'' he' hne (hblank''.trans hblank.symm)
    exact ⟨t, rfl, hsame ▸ htable''⟩

/-- A language whose name is not blank is found under it unless another table is found above. -/
theorem find?_eq_some_iff_ownsName (habove : above.Pairwise LanguageSettings.NamedApart)
    (hne : e.name.nameKey ≠ []) {t : Language} (ht : s.table e = .ok t) (rest : List Language) :
    (tables ++ t :: rest).find? (·.name == e.name.nameKey) = some t ↔ s.OwnsName above e := by
  have hkey : t.name = e.name.nameKey := by
    rw [name_of_table ht, LanguageSettings.tableKey, if_neg hne]
  rw [List.find?_append, List.find?_cons_of_pos (by simpa using hkey)]
  constructor
  · refine fun h => ⟨hne, fun e' he' hblank hbase => ?_⟩
    obtain ⟨t', hfind, htable⟩ := find?_eq_table_of_blank htables hapart habove he' hblank hbase
    rw [hfind, Option.some_or] at h
    rw [htable, ht, Option.some.inj h]
  · intro howns
    cases hfind : tables.find? (·.name == e.name.nameKey) with
    | none => rfl
    | some t' =>
      obtain ⟨e', he', hblank, hbase, htable⟩ := exists_blank_of_find? htables hapart hfind
      have hsame : s.table e' = s.table e := howns.2 e' he' hblank hbase
      rw [htable, ht] at hsame
      rw [Except.ok.inj hsame, Option.some_or]

end

/-- Looking up the name of a language gives its table exactly if it is on its own under it. -/
theorem lookup?_eq_some_iff_ownsName (hvalid : s.problems m = []) (hr : s.registry = .ok r)
    {above below : List LanguageSettings} {e : LanguageSettings}
    (hentries : s.entries = above ++ e :: below) :
    ∃ t, s.table e = .ok t ∧ r.languages[above.length]? = some t ∧
      (r.lookup? e.name = some t ↔ s.OwnsName above e) := by
  have hpairwise := ((problems_eq_nil_iff m s).1 hvalid).2
  have htables := registry_eq_ok_iff.1 hr
  rw [hentries] at hpairwise htables
  obtain ⟨habove, -, hcross⟩ := List.pairwise_append.1 hpairwise
  have hapart : ∀ e' ∈ above, e'.NamedApart e := fun e' he' =>
    hcross e' he' e List.mem_cons_self
  obtain ⟨tables, t, rest, hlanguages, htables, ht⟩ : ∃ tables t rest,
      r.languages = tables ++ t :: rest ∧
        List.Forall₂ (fun e t => s.table e = .ok t) above tables ∧ s.table e = .ok t := by
    have hfront := List.forall₂_take above.length htables
    have hback := List.forall₂_drop above.length htables
    rw [List.take_left] at hfront
    rw [List.drop_left] at hback
    cases hdrop : r.languages.drop above.length with
    | nil =>
      rw [hdrop] at hback
      cases hback
    | cons t rest =>
      rw [hdrop] at hback
      refine ⟨r.languages.take above.length, t, rest, ?_, hfront, (List.forall₂_cons.1 hback).1⟩
      rw [← hdrop, List.take_append_drop]
  have hlength : tables.length = above.length := htables.length_eq.symm
  refine ⟨t, ht, by rw [hlanguages, ← hlength]; simp, ?_⟩
  unfold Registry.lookup?
  by_cases hne : e.name.nameKey = []
  · simp [hne, OwnsName]
  · have hfind := find?_eq_some_iff_ownsName htables hapart habove hne ht rest
    rw [← hlanguages] at hfind
    rw [← hfind]
    have hsome : (r.languages.find? (·.name == e.name.nameKey)).isSome = true := by
      rw [hlanguages]
      simp [name_of_table ht, LanguageSettings.tableKey, hne]
    obtain ⟨t', ht'⟩ := Option.isSome_iff_exists.1 hsome
    simp [hne, ht']

/-- **A language is found under its own name.** Settings without problems have a registry exactly if
    all access names can be made recognisable. The tables in it stand in the order of the languages,
    and looking up the name of a language gives its table exactly if the language is on its own
    under the name. So it is with the language a file is in: it is the first one with a pattern for
    the file. All of this holds however patterns are read. -/
theorem lookup?_ownName {m : Matcher} {s : Settings} (hvalid : s.problems m = []) :
    ((∃ r, s.registry = .ok r) ↔ ∀ e ∈ s.entries, e.AccessReadable) ∧
    ∀ r, s.registry = .ok r →
      (∀ above e below, s.entries = above ++ e :: below →
        ∃ t, s.table e = .ok t ∧ r.languages[above.length]? = some t ∧
          (r.lookup? e.name = some t ↔ s.OwnsName above e)) ∧
      ∀ path name, s.languageFor? m path = some name →
        ∃ above e below t, s.entries = above ++ e :: below ∧ e.name = name ∧
          e.covers m (relativePath path) = true ∧
          (∀ e' ∈ above, e'.covers m (relativePath path) = false) ∧ s.table e = .ok t ∧
          (r.lookup? name = some t ↔ s.OwnsName above e) := by
  refine ⟨exists_registry_iff hvalid, fun r hr => ⟨fun above e below hentries => ?_, ?_⟩⟩
  · exact lookup?_eq_some_iff_ownsName hvalid hr hentries
  · intro path name hname
    obtain ⟨e, hfind, rfl⟩ := Option.map_eq_some_iff.1 hname
    obtain ⟨hcovers, above, below, hentries, habove⟩ := List.find?_eq_some_iff_append.1 hfind
    obtain ⟨t, ht, -, hlookup⟩ := lookup?_eq_some_iff_ownsName hvalid hr hentries
    exact ⟨above, e, below, t, hentries, rfl, hcovers, fun e' he' => by simpa using habove e' he',
      ht, hlookup⟩

/-- Settings with a language that has no name, a null entry, and names in mixed case. -/
def mixedSettings : Settings :=
  { languages :=
      [some { name := utf8 " ", base := utf8 "as3" },
       some { name := utf8 " Flex", base := utf8 "AS3", customAccess := [utf8 "mx_internal "] },
       none,
       some { name := utf8 "HaXe", files := [utf8 "**/*.hx"], explicitPrivate := some true }] }

theorem lookup?_ownName_mixed :
    mixedSettings.problems Glob.matcher = [] ∧
    ∃ r e t, mixedSettings.registry = .ok r ∧
      mixedSettings.languages[3]? = some (some e) ∧ mixedSettings.table e = .ok t ∧
      mixedSettings.languageFor? Glob.matcher (utf8 "/src/Main.hx") = some (utf8 "HaXe") ∧
      r.languages[2]? = some t ∧ r.lookup? (utf8 "HaXe") = some t := by
  have hvalid : mixedSettings.problems Glob.matcher = [] := by decide +kernel
  obtain ⟨hregistry, hlookup⟩ := lookup?_ownName hvalid
  obtain ⟨r, hr⟩ := hregistry.2 (by unfold LanguageSettings.AccessReadable; decide +kernel)
  obtain ⟨t, ht, hplace, howns⟩ := (hlookup r hr).1 (mixedSettings.entries.take 2) _ [] rfl
  refine ⟨hvalid, r, _, t, hr, rfl, ht, by decide +kernel, hplace, howns.2 ⟨by decide +kernel, ?_⟩⟩
  intro e' he' hblank hbase
  exact absurd hbase (by revert e'; decide +kernel)

/-- A language whose name is blank. -/
def blankSettings : Settings :=
  { languages := [some { name := utf8 " ", base := utf8 "haxe" }] }

/-- A language whose name is blank, above one with the name of the table it starts from. -/
def hidingSettings : Settings :=
  { languages :=
      [some { name := utf8 " ", base := utf8 "as3" },
       some { name := utf8 "as3", base := utf8 "haxe" }] }

/-- A blank name passes for a name, but no language is found under it. Instead the language goes by
    the name of the table it starts from, and hides the one that has that name. -/
theorem lookup?_blankName :
    (blankSettings.problems Glob.matcher = [] ∧
      ∃ r, blankSettings.registry = .ok r ∧ r.lookup? (utf8 " ") = none) ∧
    hidingSettings.problems Glob.matcher = [] ∧
      ∃ r t t', hidingSettings.registry = .ok r ∧ r.languages = [t, t'] ∧
        r.lookup? (utf8 "as3") = some t ∧ t ≠ t' := by
  refine ⟨⟨by decide +kernel, ⟨[Language.haxe (blankSettings.options {})]⟩, by decide +kernel,
    by decide +kernel⟩, by decide +kernel, ?_⟩
  let opts := hidingSettings.options {}
  exact ⟨⟨[Language.actionScript3 opts, { Language.haxe opts with name := utf8 "as3" }]⟩, _, _,
    by decide +kernel, rfl, by decide +kernel, by decide +kernel⟩

end Settings

end ModifierToggle
