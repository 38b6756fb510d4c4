import ModifierToggle.Proofs.CommentLexer
import ModifierToggle.Proofs.TokenPlacement

set_option autoImplicit false

/-! # Words put into a line

A word that is put into a line goes into its code as well, or into a comment. Text put into a block
comment only makes the comment longer (`Comment.Reads.insert`), and what is seen of the line stays
the same. A word put in front of a word of the code goes into the code in the same place
(`Comment.stripLine_insert`), and is found there. In the middle of a word it is not found, since
nothing is. These are the cases of `Language.insertion_cases`. -/

namespace ModifierToggle

open Comment (Mode Reads Opens Closes LexState strip stripLine)
open Text (EndsOutsideWord ClosesWord FirstStanding)

/-! ## Text put into a line -/

namespace Comment

/-- What a line has had of a comment comes first among the spaces that the comment is shown as. -/
theorem Reads.widen {m : Mode} {x code : Text} (h : Reads m x code) :
    ∀ width, m = .block width → ∃ code', code = List.replicate width Byte.space ++ code' ∧
      ∀ n, Reads (.block n) x (List.replicate n Byte.space ++ code') := by
  induction h with
  | nil => intro width hm; cases hm
  | byte => intro width hm; cases hm
  | opening => intro width hm; cases hm
  | @inside width b x code hb _ ih =>
    rintro _ ⟨rfl⟩
    obtain ⟨code', rfl, hreads⟩ := ih _ rfl
    refine ⟨Byte.space :: code', ?_, fun n => .inside hb ?_⟩
    · rw [List.replicate_succ', List.append_assoc]
      rfl
    · have := hreads (n + 1)
      rwa [List.replicate_succ', List.append_assoc] at this
  | @closing width x code hx _ =>
    rintro _ ⟨rfl⟩
    refine ⟨List.replicate 2 Byte.space ++ code, ?_, fun n => ?_⟩
    · rw [List.replicate_add, List.append_assoc]
    · rw [← List.append_assoc, ← List.replicate_add]
      exact .closing hx

/-- Text without slash and star can stand in front of any byte of a block comment. -/
theorem Reads.insideMany {ins : Text} (hins : ∀ b ∈ ins, b ≠ Byte.slash ∧ b ≠ Byte.star)
    {width : Nat} {x code : Text} (h : Reads (.block (width + ins.length)) x code) :
    Reads (.block width) (ins ++ x) code := by
  induction ins generalizing width with
  | nil => exact h
  | cons b ins ih =>
    refine .inside (fun hcloses => (hins b (by simp)).2 hcloses.1) ?_
    refine ih (fun d hd => hins d (List.mem_cons_of_mem _ hd)) ?_
    rwa [List.length_cons, ← Nat.add_assoc, Nat.add_right_comm] at h

theorem head?_insert {u ins t : Text} {c d : UInt8}
    (h : (u ++ (ins ++ c :: t)).head? = some d) :
    (u ++ c :: t).head? = some d ∨ d ∈ ins ++ [c] := by
  cases u with
  | cons e u => exact .inl h
  | nil =>
    cases ins with
    | nil => exact .inl h
    | cons e ins => exact .inr (by simp_all)

theorem exists_behind_pair {a b c : UInt8} {x u t : Text} (h : a :: b :: x = u ++ c :: t)
    (ha : c ≠ a) (hb : c ≠ b) : ∃ u', u = a :: b :: u' ∧ x = u' ++ c :: t := by
  cases u with
  | nil => exact absurd (List.cons.inj h).1.symm ha
  | cons d u =>
    obtain ⟨rfl, htail⟩ := List.cons.inj h
    cases u with
    | nil => exact absurd (List.cons.inj htail).1.symm hb
    | cons e u =>
      obtain ⟨rfl, hx⟩ := List.cons.inj htail
      exact ⟨u, rfl, hx⟩

/-- **Text put into a block comment shows as so many spaces more.** -/
theorem Reads.insert {m : Mode} {x code : Text} (h : Reads m x code) {ins t : Text} {c : UInt8}
    (hins : ∀ d ∈ ins ++ [c], d ≠ Byte.slash ∧ d ≠ Byte.star) (hc : c ≠ Byte.space) {u : Text}
    (hx : x = u ++ c :: t) (hspace : code[m.width + u.length]? = some Byte.space) :
    ∃ p q, code = p ++ q ∧ p.length = m.width + u.length ∧
      Reads m (u ++ (ins ++ c :: t)) (p ++ (List.replicate ins.length Byte.space ++ q)) := by
  have hslash : c ≠ Byte.slash := (hins c (by simp)).1
  have hstar : c ≠ Byte.star := (hins c (by simp)).2
  induction h generalizing u with
  | nil => cases u <;> cases hx
  | @byte b x code hb _ ih =>
    cases u with
    | nil =>
      obtain ⟨rfl, rfl⟩ := List.cons.inj hx
      exact absurd (Option.some.inj hspace) hc
    | cons d u =>
      obtain ⟨rfl, rfl⟩ := List.cons.inj hx
      obtain ⟨p, q, rfl, hp, hreads⟩ := ih rfl (by simpa [Mode.width] using hspace)
      refine ⟨b :: p, q, rfl, by simp [hp, Mode.width], .byte ?_ hreads⟩
      rintro ⟨rfl, hhead | hhead⟩
      · rcases head?_insert hhead with hold | hnew
        · exact hb ⟨rfl, .inl hold⟩
        · exact (hins _ hnew).1 rfl
      · rcases head?_insert hhead with hold | hnew
        · exact hb ⟨rfl, .inr hold⟩
        · exact (hins _ hnew).2 rfl
  | @opening x code _ ih =>
    obtain ⟨u, rfl, rfl⟩ := exists_behind_pair hx hslash hstar
    have hlength : Mode.width .code + (Byte.slash :: Byte.star :: u).length
        = Mode.width (.block 2) + u.length := by
      simp only [Mode.width, List.length_cons]
      omega
    rw [hlength] at hspace ⊢
    obtain ⟨p, q, rfl, hp, hreads⟩ := ih rfl hspace
    exact ⟨p, q, rfl, hp, .opening hreads⟩
  | @inside width b x code hb hx' ih =>
    cases u with
    | nil =>
      -- here the text goes in, and what follows is read with the comment so much wider
      obtain ⟨code', rfl, hreads⟩ := (Reads.inside hb hx').widen width rfl
      refine ⟨_, _, rfl, by simp [Mode.width], ?_⟩
      rw [List.nil_append, ← List.append_assoc (List.replicate _ _), ← List.replicate_add]
      have hwide := hreads (width + ins.length)
      rw [hx, List.nil_append] at hwide
      exact .insideMany (fun d hd => hins d (List.mem_append_left _ hd)) hwide
    | cons d u =>
      obtain ⟨rfl, rfl⟩ := List.cons.inj hx
      have hlength : Mode.width (.block width) + (b :: u).length
          = Mode.width (.block (width + 1)) + u.length := by
        simp only [Mode.width, List.length_cons]
        omega
      rw [hlength] at hspace ⊢
      obtain ⟨p, q, rfl, hp, hreads⟩ := ih rfl hspace
      refine ⟨p, q, rfl, hp, .inside ?_ hreads⟩
      rintro ⟨rfl, hhead⟩
      rcases head?_insert hhead with hold | hnew
      · exact hb ⟨rfl, hold⟩
      · exact (hins _ hnew).1 rfl
  | @closing width x code _ ih =>
    obtain ⟨u, rfl, rfl⟩ := exists_behind_pair hx hstar hslash
    have hlength : Mode.width (.block width) + (Byte.star :: Byte.slash :: u).length
        = (List.replicate (width + 2) Byte.space).length + u.length := by
      simp only [Mode.width, List.length_cons, List.length_replicate]
      omega
    rw [hlength, List.getElem?_append_right (Nat.le_add_right _ _), Nat.add_sub_cancel_left]
      at hspace
    obtain ⟨p, q, rfl, hp, hreads⟩ := ih rfl (by simpa [Mode.width] using hspace)
    refine ⟨List.replicate (width + 2) Byte.space ++ p, q, by simp, ?_, ?_⟩
    · rw [hlength, List.length_append, hp, Mode.width, Nat.zero_add]
    · rw [List.append_assoc]
      exact .closing hreads

/-- A byte that the code of a line shows is read outside comments. -/
theorem exists_reads_of_shown {m : Mode} (hm : m.width = 0) {u t : Text} {c : UInt8}
    (hc : c ≠ Byte.space) (h : (strip m (u ++ c :: t)).1[u.length]? = some c) :
    ∃ before, before.length = u.length ∧ Reads m u before := by
  obtain ⟨code, opened, hstrip⟩ : ∃ code opened, strip m (u ++ c :: t) = (code, opened) :=
    ⟨_, _, rfl⟩
  rw [hstrip] at h
  obtain ⟨hlt, hget⟩ := List.getElem?_eq_some_iff.1 h
  have hcode : code = code.take u.length ++ c :: code.drop (u.length + 1) := by
    rw [← hget, List.getElem_cons_drop, List.take_append_drop]
  have hbefore : (code.take u.length).length = u.length :=
    List.length_take_of_le (Nat.le_of_lt hlt)
  rw [hcode] at hstrip
  obtain ⟨a, y, hsplit, hreads, -⟩ := exists_reads hstrip hc
  have hlength : a.length = u.length := by
    have := hreads.length_eq
    omega
  obtain rfl := (List.append_inj hsplit hlength.symm).1
  exact ⟨_, hbefore, hreads⟩

/-- What a line shows in front of a word of its code, if text is put into a comment there. -/
theorem strip_insertInComment {m : Mode} (hm : m.width = 0) {u t v front k after : Text} {c : UInt8}
    {opened : Bool} (hstrip : strip m (u ++ c :: t) = (front ++ (k ++ after), opened))
    (hk : ∀ b ∈ k, Byte.isWord b = true) (hne : k ≠ []) (hv : ∀ b ∈ v, Byte.isWord b = true)
    (hc : Byte.isWord c = true) (hle : u.length ≤ front.length)
    (hspace : (strip m (u ++ c :: t)).1[u.length]? = some Byte.space) :
    ∃ p q n, front = p ++ Byte.space :: q ∧
      strip m (u ++ (v ++ Byte.space :: c :: t))
        = (p ++ (List.replicate n Byte.space ++ Byte.space :: q) ++ (k ++ after), opened) := by
  obtain ⟨a, y, htext, hreads, hy⟩ := exists_word hstrip hne hk
  have hlength := hreads.length_eq
  -- the space is not one of the word
  have hcode : front[u.length]? = some Byte.space := by
    rw [hstrip] at hspace
    by_cases hlt : u.length < front.length
    · rwa [List.getElem?_append_left hlt] at hspace
    · have hzero : u.length - front.length = 0 := by omega
      have hpos := List.length_pos_iff.2 hne
      rw [List.getElem?_append_right (by omega), hzero, List.getElem?_append_left hpos] at hspace
      exact absurd (hk _ (List.mem_of_getElem? hspace)) (by decide)
  have hlt : u.length < front.length := (List.getElem?_eq_some_iff.1 hcode).1
  obtain ⟨a', rfl, rfl⟩ : ∃ a', a = u ++ c :: a' ∧ t = a' ++ (k ++ y) := by
    rcases List.append_eq_append_iff.1 htext with ⟨as, rfl, hrest⟩ | ⟨bs, rfl, -⟩
    · cases as with
      | nil =>
        rw [List.append_nil] at hlength
        omega
      | cons d as =>
        obtain ⟨rfl, rfl⟩ := List.cons.inj hrest
        exact ⟨as, rfl, rfl⟩
    · rw [List.length_append] at hlt
      omega
  have hins : ∀ d ∈ (v ++ [Byte.space]) ++ [c], d ≠ Byte.slash ∧ d ≠ Byte.star := by
    intro d hd
    have hd' : Byte.isWord d = true ∨ d = Byte.space := by
      simp only [List.mem_append, List.mem_singleton] at hd
      rcases hd with (hd | hd) | rfl
      · exact .inl (hv d hd)
      · exact .inr hd
      · exact .inl hc
    constructor <;> rintro rfl <;> revert hd' <;> decide
  have hcspace : c ≠ Byte.space := by
    rintro rfl
    exact absurd hc (by decide)
  obtain ⟨p, q, rfl, hp, hreads'⟩ := hreads.insert hins hcspace rfl (by rwa [hm, Nat.zero_add])
  obtain ⟨q, rfl⟩ : ∃ q', q = Byte.space :: q' := by
    rw [List.getElem?_append_right (by omega), hp, hm, Nat.zero_add, Nat.sub_self,
      ← List.head?_eq_getElem?] at hcode
    exact List.head?_eq_some_iff.1 hcode
  refine ⟨p, q, (v ++ [Byte.space]).length, rfl, ?_⟩
  have hstrip' := hreads'.strip_append (y := k ++ y) fun _ => not_opens_word hk hne y
  rw [strip_word hk, hy] at hstrip'
  simpa only [List.append_assoc, List.cons_append, List.nil_append] using hstrip'

/-- What is read ends inside a word exactly if its code does. -/
theorem Reads.endsOutsideWord_iff {m : Mode} {u before : Text} (h : Reads m u before)
    (hm : m.width = 0) : EndsOutsideWord before ↔ EndsOutsideWord u := by
  have hlength : before.length = u.length := by
    have := h.length_eq
    omega
  constructor
  · intro hbefore d hd
    obtain ⟨u', rfl⟩ := List.getLast?_eq_some_iff.1 hd
    by_cases hslash : d = Byte.slash
    · rw [hslash]
      decide
    · obtain ⟨before', rfl, -⟩ := h.snoc_inv hslash
      exact hbefore d (by simp)
  · intro hu d hd
    obtain ⟨before', rfl⟩ := List.getLast?_eq_some_iff.1 hd
    by_cases hspace : d = Byte.space
    · rw [hspace]
      decide
    · -- the last byte of the code is no space, so it is the last byte of the text
      have hstrip : strip m u = (before' ++ d :: [], false) := by
        have := h.strip_append (y := []) fun _ hopens => by simp [Opens] at hopens
        simpa [strip] using this
      obtain ⟨a, y, hsplit, hreads, -⟩ := exists_reads hstrip hspace
      have ha := hreads.length_eq
      have hy : y = [] := by
        rw [hsplit] at hlength
        simp only [List.length_append, List.length_cons, List.length_nil] at hlength
        exact List.eq_nil_of_length_eq_zero (by omega)
      exact hu d (by simp [hsplit, hy])

/-- A word put in front of a byte of code goes into the code in the same place. -/
theorem stripLine_insert {inBlock : Bool} {u t v : Text} {c : UInt8} (hc : Byte.isWord c = true)
    (hv : ∀ b ∈ v, Byte.isWord b = true) (hne : v ≠ [])
    (h : (stripLine inBlock (u ++ c :: t)).1[u.length]? = some c) :
    ∃ before rest, before.length = u.length ∧ (EndsOutsideWord before ↔ EndsOutsideWord u) ∧
      (stripLine inBlock (u ++ c :: t)).1 = before ++ rest ∧
      (stripLine inBlock (u ++ (v ++ Byte.space :: c :: t))).1
        = before ++ (v ++ Byte.space :: rest) := by
  obtain ⟨m, hm, hmode⟩ := exists_mode inBlock
  have hcspace : c ≠ Byte.space := by
    rintro rfl
    exact absurd hc (by decide)
  rw [hmode] at h
  obtain ⟨before, hlength, hreads⟩ := exists_reads_of_shown hm hcspace h
  refine ⟨before, (strip .code (c :: t)).1, hlength, hreads.endsOutsideWord_iff hm, ?_, ?_⟩
  · have hnot : ¬ Opens Byte.slash (c :: t) :=
      not_opens_word (w := [c]) (by simpa using hc) (by simp) t
    rw [hmode, hreads.strip_append fun _ => hnot]
  · rw [hmode, hreads.strip_append fun _ => not_opens_word hv hne _, strip_word_space hv]

end Comment

/-! ## Spaces and words put into code -/

namespace Text

instance (u : Text) : Decidable (EndsOutsideWord u) :=
  decidable_of_iff (u.getLast?.all (fun b => !Byte.isWord b) = true) (by
    simp [EndsOutsideWord, Option.all_eq_true])

variable {p q : Text}

theorem standing_spaces (p q : Text) (n : Nat) :
    (p ++ (List.replicate n Byte.space ++ Byte.space :: q)).standing
      = (p ++ Byte.space :: q).standing := by
  rw [standing_append_closed p (closesWord_space q) (by simp), standing_append_closed p _ (by simp),
    standing_blanks (isBlank_spaces n)]
  cases n with
  | zero => exact closesWord_space q
  | succ n => exact closesWord_space _

theorem hasLooseSlash_spaces (p q : Text) (n : Nat) :
    (p ++ (List.replicate n Byte.space ++ Byte.space :: q)).hasLooseSlash
      = (p ++ Byte.space :: q).hasLooseSlash := by
  rw [hasLooseSlash_append_closed p (closesWord_space q), hasLooseSlash_append_closed p,
    hasLooseSlash_blanks (isBlank_spaces n)]
  cases n with
  | zero => exact closesWord_space q
  | succ n => exact closesWord_space _

theorem standing_insertWord {before v : Text} (hbefore : EndsOutsideWord before)
    (hv : ∀ b ∈ v, Byte.isWord b = true) (hne : v ≠ []) (mid : Text) :
    (before ++ (v ++ Byte.space :: mid)).standing = before.standing ++ v :: mid.standing := by
  rw [standing_split hbefore hv hne (closesWord_space mid) (by simp),
    standing_separator (by decide)]

theorem getLast?_insert (u v : Text) (c : UInt8) (t : Text) :
    (u ++ (v ++ Byte.space :: c :: t)).getLast? = (u ++ c :: t).getLast? := by
  have hsplit : u ++ (v ++ Byte.space :: c :: t) = (u ++ v ++ [Byte.space]) ++ c :: t := by simp
  rw [hsplit]
  exact getLast?_congr (by simp)

/-- A word and a space put between two words hide nothing of the words behind them. -/
theorem FirstStanding.insertWord {r : Text → Prop} {atEnd : Bool} {t before mid w after v : Text}
    (h : FirstStanding r atEnd t (before ++ mid) w after) (hbefore : EndsOutsideWord before)
    (hv : ∀ b ∈ v, Byte.isWord b = true) (hne : v ≠ []) (hr : ¬ r v) :
    FirstStanding r atEnd (before ++ (v ++ Byte.space :: mid) ++ (w ++ after))
      (before ++ (v ++ Byte.space :: mid)) w after where
  text_eq := rfl
  before_ends := by
    have hmid : EndsOutsideWord (Byte.space :: mid) := by
      refine EndsOutsideWord.append (u := [Byte.space]) (fun _ => ?_) h.before_ends.of_append
      exact endsOutsideWord_snoc (u := []) (by decide)
    refine EndsOutsideWord.append (fun hnil => ?_) (EndsOutsideWord.append (fun hnil => ?_) hmid)
    · simp at hnil
    · cases hnil
  isWord := h.isWord
  ne_nil := h.ne_nil
  after_closes := h.after_closes
  closedAtEnd := h.closedAtEnd
  holds := h.holds
  first := by
    intro w' hw'
    have hold := h.first
    rw [standing_append hbefore] at hold
    rw [standing_insertWord hbefore hv hne, List.mem_append, List.mem_cons] at hw'
    rcases hw' with hw' | rfl | hw'
    · exact hold w' (List.mem_append_left _ hw')
    · exact hr
    · exact hold w' (List.mem_append_right _ hw')

end Text

/-! ## Searching behind words that are passed -/

namespace Keyword

/-- The occurrence, so many bytes further on. -/
def Occurrence.shift (n : Nat) (o : Occurrence) : Occurrence :=
  ⟨o.start + n, o.stop + n, o.next + n⟩

namespace Pattern

variable {p : Pattern}

theorem scan_shift (n : Nat) (pos : Nat) (afterWord : Bool) (skip : Nat) (t : Text) :
    p.scan (pos + n) afterWord skip t = (p.scan pos afterWord skip t).map (·.shift n) := by
  induction t generalizing pos afterWord skip with
  | nil => cases skip <;> rfl
  | cons b t ih =>
    cases skip with
    | succ skip =>
      rw [scan, scan, Nat.add_right_comm, ih]
    | zero =>
      rw [scan, scan]
      cases p.front? (b :: t) with
      | none =>
        simp only
        rw [Nat.add_right_comm, ih]
      | some front =>
        obtain ⟨word, close⟩ := front
        simp only
        split
        · rw [Nat.add_right_comm, ih]
        · simp only [Option.map_some, Occurrence.shift]
          congr 2 <;> omega

/-- Words that are not looked for only move what is found. -/
theorem Plain.find?_passes (hp : p.Plain) {u : Text} (hu : EndsOutsideWord u)
    (hmiss : ∀ w ∈ u.standing, w ∉ p.words) (t : Text) :
    p.find? (u ++ t) = (p.find? t).map (·.shift u.length) := by
  rw [hp.find?_eq, hp.find?_eq, hp.scan_passes hu hmiss, scan_shift]

end Pattern

end Keyword

namespace Language

/-- Code with a word put between its modifiers. -/
structure TakesWord (lang : Language) (code code' v : Text) : Prop where
  /-- The keyword that opens the declaration moves on. -/
  start : lang.findStart? code' = (lang.findStart? code).map (·.shift (v.length + 1))
  /-- The word stands among those that were there. -/
  words : ∃ ws ws', lang.modifierWords code = ws ++ ws' ∧ lang.modifierWords code' = ws ++ v :: ws'

variable {lang : Language} (hlang : lang.Customary)

include hlang

theorem findStart?_passes {u : Text} (hu : EndsOutsideWord u)
    (hmiss : ∀ w ∈ u.standing, w ∉ lang.startWords) (t : Text) :
    lang.findStart? (u ++ t) = (lang.findStart? t).map (·.shift u.length) := by
  cases hstart : lang.declarationStart with
  | none => rw [findStart?, findStart?, hstart]; rfl
  | some p =>
    have hp : ∀ w ∈ u.standing, w ∉ p.words := by
      intro w hw
      simpa [startWords, hstart] using hmiss w hw
    rw [findStart?, findStart?, hstart]
    exact (hlang.start_plain hstart).find?_passes hu hp t

/-- A modifier that is put in front of a word before the keyword moves the keyword on. -/
theorem findStart?_insertWord {before mid keyword after v : Text} (hbefore : EndsOutsideWord before)
    (hv : lang.IsModifierWord v)
    (hstart : FirstStanding (· ∈ lang.startWords) false (before ++ mid ++ (keyword ++ after))
      (before ++ mid) keyword after) :
    lang.findStart? (before ++ (v ++ Byte.space :: mid) ++ (keyword ++ after))
      = (lang.findStart? (before ++ mid ++ (keyword ++ after))).map (·.shift (v.length + 1)) := by
  have hnew := hstart.insertWord hbefore (Text.isWord_of_isHeaderWord hv.1)
    (Text.ne_nil_of_isHeaderWord hv.1) hv.2
  rw [findStart?_passes hlang hnew.before_ends hnew.first,
    findStart?_passes hlang hstart.before_ends hstart.first, Option.map_map]
  congr 1
  funext o
  simp only [Function.comp, Keyword.Occurrence.shift, List.length_append, List.length_cons]
  congr 1 <;> omega

/-- **What is put into a comment before the keyword is not seen.** -/
theorem ShowsSame.insertInComment {inBlock : Bool} {u t v : Text} {c : UInt8}
    (hv : ∀ b ∈ v, Byte.isWord b = true) (hc : Byte.isWord c = true)
    {front keyword after : Text}
    (hstart : FirstStanding (· ∈ lang.startWords) false (stripLine inBlock (u ++ c :: t)).1
      front keyword after) (hle : u.length ≤ front.length)
    (hspace : (stripLine inBlock (u ++ c :: t)).1[u.length]? = some Byte.space) :
    lang.ShowsSame inBlock (u ++ c :: t) (u ++ (v ++ Byte.space :: c :: t)) := by
  obtain ⟨m, hm, hmode⟩ := Comment.exists_mode inBlock
  rw [hmode] at hstart hspace
  obtain ⟨p, q, n, rfl, hstrip⟩ := Comment.strip_insertInComment hm (Prod.ext hstart.text_eq rfl)
    hstart.isWord hstart.ne_nil hv hc hle hspace
  have hends : EndsOutsideWord (p ++ (List.replicate n Byte.space ++ Byte.space :: q)) :=
    .append (by simp) (.append (by simp) hstart.before_ends.of_append)
  have hwords := Text.standing_spaces p q n
  refine ⟨?_, ?_, fun _ => ?_⟩
  · rw [hmode, hmode, hstrip]
    refine SeesSame.of_first hlang hstart hends (by rw [hwords]) (by rw [hwords]) ?_
    rw [Text.hasLooseSlash_spaces]
    exact id
  · rw [hmode, hmode, hstrip]
  · exact Text.getLast?_insert u v c t

theorem findVisibility?_eq_none_iff (code : Text) :
    lang.findVisibility? (lang.modifierPart code) = none
      ↔ ∀ w ∈ lang.modifierWords code, lang.isVisibility w = false := by
  have hsome := hlang.visibility_plain.find?_isSome (lang.modifierPart code)
  rw [hlang.visibility_atEnd, hlang.visibility_words] at hsome
  rw [findVisibility?, ← Option.not_isSome_iff_eq_none, hsome]
  simp [modifierWords, isVisibility]

/-- A word goes into code between two words before the keyword, and if it is the first visibility
    there, that is where it is found. -/
theorem TakesWord.insert {before rest v front keyword after : Text}
    (hbefore : EndsOutsideWord before) (hv : lang.isVisibility v = true)
    (hstart : FirstStanding (· ∈ lang.startWords) false (before ++ rest) front keyword after)
    (hle : before.length ≤ front.length)
    (hnone : lang.findVisibility? (lang.modifierPart (before ++ rest)) = none) :
    lang.TakesWord (before ++ rest) (before ++ (v ++ Byte.space :: rest)) v ∧
      ∃ at_, lang.findVisibility? (lang.modifierPart (before ++ (v ++ Byte.space :: rest)))
        = some at_ ∧ at_.start = before.length := by
  obtain ⟨mid, rfl, rfl⟩ : ∃ mid, front = before ++ mid ∧ rest = mid ++ (keyword ++ after) := by
    rcases List.append_eq_append_iff.1 hstart.text_eq with ⟨as, rfl, hrest⟩ | ⟨bs, rfl, hrest⟩
    · exact ⟨as, rfl, hrest⟩
    · obtain rfl : bs = [] := by
        rw [List.length_append] at hle
        exact List.eq_nil_of_length_eq_zero (by omega)
      exact ⟨[], by simp, hrest.symm⟩
  have hmodifier := hlang.visibility_word hv
  have hword := Text.isWord_of_isHeaderWord hmodifier.1
  have hne := Text.ne_nil_of_isHeaderWord hmodifier.1
  have hcode : before ++ (mid ++ (keyword ++ after)) = before ++ mid ++ (keyword ++ after) := by
    simp
  have hcode' : before ++ (v ++ Byte.space :: (mid ++ (keyword ++ after)))
      = before ++ (v ++ Byte.space :: mid) ++ (keyword ++ after) := by simp
  rw [hcode] at hstart hnone ⊢
  rw [hcode']
  have hnew := hstart.insertWord hbefore hword hne hmodifier.2
  have hpart := modifierPart_first hlang hstart
  have hpart' := modifierPart_first hlang hnew
  refine ⟨⟨?_, before.standing, mid.standing, ?_, ?_⟩, ?_⟩
  · exact findStart?_insertWord hlang hbefore hmodifier hstart
  · rw [modifierWords, hpart, Text.standing_append hbefore]
  · rw [modifierWords, hpart', Text.standing_insertWord hbefore hword hne]
  · rw [findVisibility?_eq_none_iff hlang, modifierWords, hpart, Text.standing_append hbefore]
      at hnone
    have hfirst : FirstStanding (· ∈ lang.visibility.words) lang.visibility.atEnd
        (lang.modifierPart (before ++ (v ++ Byte.space :: mid) ++ (keyword ++ after)))
        before v (Byte.space :: mid) := by
      rw [hlang.visibility_atEnd, hlang.visibility_words]
      refine ⟨hpart', hbefore, hword, hne, Text.closesWord_space mid, fun _ => rfl,
        isVisibility_iff.1 hv, fun w hw hmem => ?_⟩
      have hfalse := hnone w (List.mem_append_left _ hw)
      rw [isVisibility_iff.2 hmem] at hfalse
      cases hfalse
    obtain ⟨at_, hat, hat_start, -⟩ := hlang.visibility_plain.find?_first hfirst
    exact ⟨at_, hat, hat_start⟩

/-- Nothing is found in the middle of a word. -/
theorem endsOutsideWord_of_findVisibility? {before rest : Text} {at_ : Keyword.Occurrence}
    (hat : lang.findVisibility? (lang.modifierPart (before ++ rest)) = some at_)
    (hstart : at_.start = before.length) : EndsOutsideWord before := by
  rcases hlang.visibility_plain.find?_cases (lang.modifierPart (before ++ rest)) with
    ⟨hnone, -⟩ | ⟨u, w, v, at_', hfirst, hat', hu, -⟩
  · rw [findVisibility?, hnone] at hat
    cases hat
  · rw [findVisibility?, hat'] at hat
    obtain rfl := Option.some.inj hat
    obtain ⟨tail, hcode⟩ := lang.modifierPart_append (before ++ rest)
    rw [hfirst.text_eq, List.append_assoc] at hcode
    obtain rfl := (List.append_inj hcode (by omega)).1
    exact hfirst.before_ends

/-- **Where a visibility that is put into a header line ends up.** Before a word of the code, it is
    found there. Inside a word, it is not found there; and in a comment, nothing changes for those
    who look at the code. -/
theorem insertion_cases {inBlock : Bool} {u t v : Text} {c : UInt8}
    (hv : lang.isVisibility v = true) (hc : Byte.isWord c = true) {front keyword after : Text}
    (hstart : FirstStanding (· ∈ lang.startWords) false (stripLine inBlock (u ++ c :: t)).1
      front keyword after) (hle : u.length ≤ front.length)
    (hnone : lang.findVisibility? (lang.modifierPart (stripLine inBlock (u ++ c :: t)).1) = none) :
    let x := u ++ c :: t
    let y := u ++ (v ++ Byte.space :: c :: t)
    let place := (LexState.entering inBlock).placeAt x u.length
    let found := lang.findVisibility? (lang.modifierPart (stripLine inBlock y).1)
    (place = .code ∧ EndsOutsideWord u ∧
        lang.TakesWord (stripLine inBlock x).1 (stripLine inBlock y).1 v ∧
        ∃ at_, found = some at_ ∧ at_.start = u.length) ∨
      (place = .code ∧ ¬ EndsOutsideWord u ∧ ∀ at_, found = some at_ → at_.start ≠ u.length) ∨
      (place = .block ∧ lang.ShowsSame inBlock x y ∧ found = none) := by
  intro x y place found
  have hword := Text.isWord_of_isHeaderWord (hlang.visibility_word hv).1
  have hlt : u.length < (stripLine inBlock x).1.length := by
    have hpos := List.length_pos_iff.2 hstart.ne_nil
    rw [hstart.text_eq, List.length_append, List.length_append]
    omega
  have hview := (Comment.view_spec (.entering inBlock) x).byte u.length
  have hstrip : (stripLine inBlock x).1 = Comment.view (.entering inBlock) x := by
    rw [Comment.stripLine_eq_view]
  rw [← hstrip] at hview
  rcases hview hlt with ⟨hcode, hbyte⟩ | ⟨hblock, hspace⟩
  · have hshown : (stripLine inBlock x).1[u.length]? = some c := by
      rw [hbyte]
      simp [x]
    obtain ⟨before, rest, hlength, hends, hx, hy⟩ := Comment.stripLine_insert hc hword
      (Text.ne_nil_of_isHeaderWord (hlang.visibility_word hv).1) hshown
    simp only [found, x, y, hx, hy] at hstart hnone ⊢
    rw [← hlength] at hle ⊢
    by_cases hu : EndsOutsideWord u
    · obtain ⟨htakes, hfound⟩ := TakesWord.insert hlang (hends.2 hu) hv hstart hle hnone
      exact .inl ⟨hcode, hu, htakes, hfound⟩
    · refine .inr (.inl ⟨hcode, hu, fun at_ hat hat_start => hu (hends.1 ?_)⟩)
      exact endsOutsideWord_of_findVisibility? hlang hat hat_start
  · right; right
    have hshows := ShowsSame.insertInComment hlang hword hc hstart hle hspace
    refine ⟨hblock, hshows, ?_⟩
    rw [findVisibility?_eq_none_iff hlang] at hnone ⊢
    intro w hw
    exact hnone w (hshows.sees.words.mem_iff.1 hw)

end Language

/-- The keyword that opens a declaration stands first in the code where it is found. -/
theorem Language.exists_first_start {lang : Language} (hlang : lang.Customary) {code : Text}
    {at_ : Keyword.Occurrence} (hat : lang.findStart? code = some at_) :
    ∃ front keyword after, FirstStanding (· ∈ lang.startWords) false code front keyword after ∧
      front.length = at_.start := by
  rcases lang.start_cases code with hnone | ⟨front, keyword, after, hfirst⟩
  · rw [findStart?_eq_none hlang hnone] at hat
    cases hat
  · obtain ⟨at_', hat', hstart⟩ := findStart?_first hlang hfirst
    obtain rfl := Option.some.inj (hat'.symm.trans hat)
    exact ⟨front, keyword, after, hfirst, hstart.symm⟩

end ModifierToggle
