import ModifierToggle.Proofs.HeaderLine

set_option autoImplicit false

/-! # The tables that can be built

Every table that can be built, whatever its settings, has words for keywords, spells no two
modifiers the same, and keeps visibilities and modifiers apart (`Language.build_orderly`). Only
access names of the user's own have to be asked for that much, and Haxe has none. -/

namespace ModifierToggle.Language

/-- A table in which the keywords tell modifiers and visibilities apart. -/
structure Orderly (lang : Language) : Prop extends lang.Regular where
  token_injective : ∀ tok ∈ lang.tokens, ∀ tok' ∈ lang.tokens, tok.keyword = tok'.keyword →
    tok = tok'
  token_notVisibility : ∀ tok ∈ lang.tokens, lang.isVisibility tok.keyword = false

/-- The keywords built into a table are words, spell no two modifiers the same, and keep modifiers,
    visibilities and starts of declarations apart. -/
def SoundKeywords (lang : Language) : Prop :=
  (∀ w ∈ lang.startWords, w.isHeaderWord = true) ∧
  (∀ tok ∈ lang.tokens, tok.pattern.words = [tok.keyword] ∧ lang.IsModifierWord tok.keyword) ∧
  (∀ tok ∈ lang.tokens, ∀ tok' ∈ lang.tokens, tok.keyword = tok'.keyword → tok = tok') ∧
  ∀ v ∈ lang.memberVisibilities ++ lang.classVisibilities,
    v.isName = true ∧ v ∉ lang.startWords ∧ ∀ tok ∈ lang.tokens, tok.keyword ≠ v

instance (lang : Language) : Decidable lang.SoundKeywords :=
  inferInstanceAs (Decidable (_ ∧ _))

/-- The access names of the user's own are names, and stand neither for a modifier nor for the start
    of a declaration. -/
def CleanAccess (lang : Language) : Prop :=
  ∀ v ∈ lang.customAccess,
    v.isName = true ∧ v ∉ lang.startWords ∧ ∀ tok ∈ lang.tokens, tok.keyword ≠ v

theorem mem_allVisibilities {lang : Language} {v : Text} :
    v ∈ lang.allVisibilities
      ↔ (v ∈ lang.memberVisibilities ∨ v ∈ lang.classVisibilities ∨ v ∈ lang.customAccess)
        ∧ v ≠ [] := by
  rw [allVisibilities, List.mem_eraseDups, List.mem_filter]
  simp

theorem isVisibility_iff {lang : Language} {v : Text} :
    lang.isVisibility v = true ↔ v ∈ lang.allVisibilities := List.contains_iff_mem

/-- A table is orderly if the keywords built in are sound, and the names of the user clean. -/
theorem SoundKeywords.orderly {lang : Language} (hsound : lang.SoundKeywords)
    (hclean : lang.CleanAccess) (hpattern : lang.visibility.words = lang.allVisibilities) :
    lang.Orderly := by
  obtain ⟨hstart, htokens, hinjective, hown⟩ := hsound
  have hall : ∀ v ∈ lang.allVisibilities,
      v.isName = true ∧ v ∉ lang.startWords ∧ ∀ tok ∈ lang.tokens, tok.keyword ≠ v := by
    intro v hv
    rcases (mem_allVisibilities.1 hv).1 with hv | hv | hv
    · exact hown v (List.mem_append_left _ hv)
    · exact hown v (List.mem_append_right _ hv)
    · exact hclean v hv
  refine ⟨⟨hstart, fun tok htok => (htokens tok htok).1, fun tok htok => (htokens tok htok).2,
    hpattern, fun v hv => (hall v hv).1, fun v hv => (hall v hv).2.1⟩, hinjective, ?_⟩
  intro tok htok
  cases hvis : lang.isVisibility tok.keyword with
  | false => rfl
  | true => exact absurd rfl ((hall _ (isVisibility_iff.1 hvis)).2.2 tok htok)

-- no setting has a say in the keywords built in, so that they are those of the usual settings
theorem haxe_soundKeywords (opts : LanguageOptions) : (haxe opts).SoundKeywords := by
  show (haxe {}).SoundKeywords
  decide

theorem actionScript3_soundKeywords (opts : LanguageOptions) :
    (actionScript3 opts).SoundKeywords := by
  show (actionScript3 {}).SoundKeywords
  decide

theorem haxe_orderly (opts : LanguageOptions) : (haxe opts).Orderly :=
  (haxe_soundKeywords opts).orderly (fun _ hv => absurd hv List.not_mem_nil) rfl

/-- A table that can be built is one of those built in, perhaps under another name. -/
theorem build_cases {name base : Text} {opts : LanguageOptions} {lang : Language}
    (h : build name base opts = .ok lang) :
    ∃ n : Text, lang = { haxe opts with name := n } ∨
      lang = { actionScript3 opts with name := n } := by
  unfold build at h
  split at h
  · cases h
  · next table htable =>
    have htable' : table = haxe ∨ table = actionScript3 := by
      unfold base? at htable
      split at htable
      · exact Or.inl (Option.some.inj htable).symm
      · split at htable
        · exact Or.inr (Option.some.inj htable).symm
        · cases htable
    simp only at h
    split at h
    · cases h
      split
      · exact ⟨(table opts).name, by rcases htable' with rfl | rfl <;> simp⟩
      · exact ⟨name.nameKey, by rcases htable' with rfl | rfl <;> simp⟩
    · cases h

/-- Every table that can be built has sound keywords, and recognises its visibilities by them. -/
theorem build_soundKeywords {name base : Text} {opts : LanguageOptions} {lang : Language}
    (h : build name base opts = .ok lang) :
    lang.SoundKeywords ∧ lang.visibility.words = lang.allVisibilities := by
  -- the name of a table has no say in any of this
  obtain ⟨n, rfl | rfl⟩ := build_cases h
  · exact ⟨haxe_soundKeywords opts, rfl⟩
  · exact ⟨actionScript3_soundKeywords opts, rfl⟩

/-- **Every table that can be built is orderly,** provided the access names of the user are
    clean. -/
theorem build_orderly {name base : Text} {opts : LanguageOptions} {lang : Language}
    (h : build name base opts = .ok lang) (hclean : lang.CleanAccess) : lang.Orderly :=
  (build_soundKeywords h).1.orderly hclean (build_soundKeywords h).2

/-- An orderly table in which the end of a text closes modifiers and visibilities, but not the
    keyword that opens a declaration, and in which "final" has no place before that keyword. -/
structure Customary (lang : Language) : Prop extends lang.Orderly where
  start_atEnd : ∀ p ∈ lang.declarationStart, p.atEnd = false
  token_atEnd : ∀ tok ∈ lang.tokens, tok.pattern.atEnd = true
  visibility_atEnd : lang.visibility.atEnd = true
  final_placement : ∀ tok ∈ lang.tokens, tok.modifier = .final → tok.placement ≠ .beforeKeyword

/-- So is every table that can be built. -/
theorem build_customary {name base : Text} {opts : LanguageOptions} {lang : Language}
    (h : build name base opts = .ok lang) (hclean : lang.CleanAccess) : lang.Customary := by
  have horderly := build_orderly h hclean
  obtain ⟨n, rfl | rfl⟩ := build_cases h
  · refine ⟨horderly, ?_, ?_, rfl, ?_⟩
    · show ∀ p ∈ (haxe {}).declarationStart, p.atEnd = false
      decide
    · show ∀ tok ∈ (haxe {}).tokens, tok.pattern.atEnd = true
      decide
    · show ∀ tok ∈ (haxe {}).tokens, tok.modifier = .final → tok.placement ≠ .beforeKeyword
      decide
  · refine ⟨horderly, ?_, ?_, rfl, ?_⟩
    · show ∀ p ∈ (actionScript3 {}).declarationStart, p.atEnd = false
      decide
    · show ∀ tok ∈ (actionScript3 {}).tokens, tok.pattern.atEnd = true
      decide
    · show ∀ tok ∈ (actionScript3 {}).tokens, tok.modifier = .final → tok.placement ≠ .beforeKeyword
      decide

/-- Visibilities are recognised by their names, which are made of word bytes, and the end of a text
    closes them. -/
structure PlainVisibilities (lang : Language) : Prop where
  plain : lang.visibility.Plain
  atEnd : lang.visibility.atEnd = true
  words_eq : lang.visibility.words = lang.allVisibilities

theorem Customary.plainVisibilities {lang : Language} (hlang : lang.Customary) :
    lang.PlainVisibilities :=
  ⟨hlang.visibility_plain, hlang.visibility_atEnd, hlang.visibility_words⟩

/-- A table that can be built finds keywords and tokens as one does that has no access names of its
    own. -/
theorem exists_customary {name base : Text} {opts : LanguageOptions} {lang : Language}
    (hbuild : build name base opts = .ok lang) :
    ∃ lang₀ : Language, lang₀.Customary ∧ lang₀.declarationStart = lang.declarationStart ∧
      lang₀.tokens = lang.tokens := by
  have hclean : ∀ lang₀ : Language, lang₀.customAccess = [] → lang₀.CleanAccess := by
    intro lang₀ hnil v hv
    rw [hnil] at hv
    cases hv
  obtain ⟨n, rfl | rfl⟩ := build_cases hbuild
  · have hplain : build [] (utf8 "haxe") {} = .ok (haxe {}) := rfl
    exact ⟨haxe {}, build_customary hplain (hclean _ rfl), rfl, rfl⟩
  · have hplain : build [] (utf8 "as3") {} = .ok (actionScript3 {}) := rfl
    exact ⟨actionScript3 {}, build_customary hplain (hclean _ rfl), rfl, rfl⟩

theorem findStart?_congr {lang lang₀ : Language}
    (h : lang₀.declarationStart = lang.declarationStart) (code : Text) :
    lang.findStart? code = lang₀.findStart? code := by
  rw [findStart?, findStart?, h]

end ModifierToggle.Language
