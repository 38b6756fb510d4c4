import ModifierToggle.Comment
import Mathlib.Data.List.Induction

set_option autoImplicit false

/-! # Reading code among comments

Removing comments keeps offsets, so that what is found in the code of a line can be changed in its
text. `Comment.Reads` says what it is for a piece of text to be read up to a point outside comments:
its code is then known, whatever follows it (`Reads.strip_append`). Everything in the code that is
no space has such a piece of text before it, as long as the code before it is (`exists_reads`), and
stands in the text just as it stands in the code (`exists_text`). -/

namespace ModifierToggle.Comment

/-- The byte and the text after it begin with the opening of a comment. -/
def Opens (b : UInt8) (x : Text) : Prop :=
  b = Byte.slash ∧ (x.head? = some Byte.slash ∨ x.head? = some Byte.star)

/-- The byte and the text after it begin with the end of a block comment. -/
def Closes (b : UInt8) (x : Text) : Prop := b = Byte.star ∧ x.head? = some Byte.slash

theorem strip_byte {b : UInt8} {x : Text} (h : ¬ Opens b x) :
    strip .code (b :: x) = (b :: (strip .code x).1, (strip .code x).2) := by
  rw [strip]
  · rintro rest rfl rfl
    exact h ⟨rfl, Or.inl rfl⟩
  · rintro rest rfl rfl
    exact h ⟨rfl, Or.inr rfl⟩

theorem strip_inside {b : UInt8} {x : Text} (h : ¬ Closes b x) (width : Nat) :
    strip (.block width) (b :: x) = strip (.block (width + 1)) x := by
  rw [strip]
  rintro rest rfl rfl
  exact h ⟨rfl, rfl⟩

theorem not_opens_of_append {b : UInt8} {x y : Text} (h : ¬ Opens b (x ++ y)) : ¬ Opens b x := by
  rintro ⟨rfl, hhead⟩
  cases x with
  | nil => simp at hhead
  | cons c x => exact h ⟨rfl, by simpa using hhead⟩

theorem not_closes_of_append {b : UInt8} {x y : Text} (h : ¬ Closes b (x ++ y)) :
    ¬ Closes b x := by
  rintro ⟨rfl, hhead⟩
  cases x with
  | nil => simp at hhead
  | cons c x => exact h ⟨rfl, by simpa using hhead⟩

/-! ## Text that is read up to a point outside comments -/

/-- From the mode on, the text is read with the given code, and no comment is open at its end. -/
inductive Reads : Mode → Text → Text → Prop
  | nil : Reads .code [] []
  | byte {b : UInt8} {x code : Text} : ¬ Opens b x → Reads .code x code →
      Reads .code (b :: x) (b :: code)
  | opening {x code : Text} : Reads (.block 2) x code →
      Reads .code (Byte.slash :: Byte.star :: x) code
  | inside {width : Nat} {b : UInt8} {x code : Text} : ¬ Closes b x →
      Reads (.block (width + 1)) x code → Reads (.block width) (b :: x) code
  | closing {width : Nat} {x code : Text} : Reads .code x code →
      Reads (.block width) (Byte.star :: Byte.slash :: x)
        (List.replicate (width + 2) Byte.space ++ code)

/-- The number of bytes of an open comment that have been read. -/
def Mode.width : Mode → Nat
  | .code => 0
  | .block width => width

namespace Reads

variable {m : Mode} {x code : Text}

/-- Code keeps offsets. -/
theorem length_eq (h : Reads m x code) : code.length = m.width + x.length := by
  induction h with
  | nil => rfl
  | byte _ _ ih => simpa [Mode.width] using ih
  | opening _ ih =>
    rw [ih]
    simp only [Mode.width, List.length_cons]
    omega
  | inside _ _ ih =>
    rw [ih]
    simp only [Mode.width, List.length_cons]
    omega
  | closing _ ih =>
    rw [List.length_append, ih]
    simp only [Mode.width, List.length_cons, List.length_replicate]
    omega

theorem eq_nil (h : Reads .code [] code) : code = [] := by
  cases h
  rfl

theorem ne_nil {width : Nat} (h : Reads (.block width) x code) : x ≠ [] := by
  cases h <;> simp

/-- **What follows is read as code,** unless it makes a slash into the opening of a comment. -/
theorem strip_append (h : Reads m x code) {y : Text}
    (hjoin : code.getLast? = some Byte.slash → ¬ Opens Byte.slash y) :
    strip m (x ++ y) = (code ++ (strip .code y).1, (strip .code y).2) := by
  induction h with
  | nil => rfl
  | @byte b x code hopens hx ih =>
    have hopens' : ¬ Opens b (x ++ y) := by
      rintro ⟨rfl, hhead⟩
      cases x with
      | nil =>
        rw [hx.eq_nil] at hjoin
        exact hjoin rfl ⟨rfl, by simpa using hhead⟩
      | cons c x => exact hopens ⟨rfl, by simpa using hhead⟩
    have hcode := ih fun hlast => hjoin (by simp [List.getLast?_cons, hlast])
    rw [List.cons_append, strip_byte hopens', hcode]
    rfl
  | opening _ ih =>
    rw [List.cons_append, List.cons_append, strip]
    exact ih hjoin
  | @inside width b x code hcloses hx ih =>
    have hcloses' : ¬ Closes b (x ++ y) := by
      rintro ⟨rfl, hhead⟩
      obtain ⟨c, x', rfl⟩ := List.exists_cons_of_ne_nil hx.ne_nil
      exact hcloses ⟨rfl, by simpa using hhead⟩
    rw [List.cons_append, strip_inside hcloses']
    exact ih hjoin
  | closing _ ih =>
    have hcode := ih fun hlast => hjoin (by simp [List.getLast?_append, hlast])
    rw [List.cons_append, List.cons_append, strip, hcode, List.append_assoc]

/-- A last byte that is no slash is code, and so is nothing before it that was not. -/
theorem snoc_inv {b : UInt8} {a : Text} (h : Reads m (a ++ [b]) code) (hb : b ≠ Byte.slash) :
    ∃ code', code = code' ++ [b] ∧ Reads m a code' := by
  generalize hx : a ++ [b] = x at h
  induction h generalizing a with
  | nil => simp at hx
  | @byte c x code hopens hread ih =>
    cases a with
    | nil =>
      obtain ⟨rfl, rfl⟩ : b = c ∧ [] = x := by simpa using hx
      rw [hread.eq_nil]
      exact ⟨[], rfl, .nil⟩
    | cons a₀ a =>
      obtain ⟨rfl, rfl⟩ : a₀ = c ∧ a ++ [b] = x := by simpa using hx
      obtain ⟨code', rfl, ha⟩ := ih rfl
      exact ⟨a₀ :: code', rfl, .byte (not_opens_of_append hopens) ha⟩
  | @opening x code hread ih =>
    match a, hx with
    | [], hx => simp at hx
    | [_], hx =>
      obtain ⟨-, -, rfl⟩ : _ ∧ b = Byte.star ∧ [] = x := by simpa using hx
      exact absurd rfl hread.ne_nil
    | _ :: _ :: a, hx =>
      obtain ⟨rfl, rfl, rfl⟩ : _ ∧ _ ∧ a ++ [b] = x := by simpa using hx
      obtain ⟨code', rfl, ha⟩ := ih rfl
      exact ⟨code', rfl, .opening ha⟩
  | @inside width c x code hcloses hread ih =>
    cases a with
    | nil =>
      obtain ⟨-, rfl⟩ : b = c ∧ [] = x := by simpa using hx
      exact absurd rfl hread.ne_nil
    | cons a₀ a =>
      obtain ⟨rfl, rfl⟩ : a₀ = c ∧ a ++ [b] = x := by simpa using hx
      obtain ⟨code', rfl, ha⟩ := ih rfl
      exact ⟨code', rfl, .inside (not_closes_of_append hcloses) ha⟩
  | @closing width x code hread ih =>
    match a, hx with
    | [], hx => simp at hx
    | [_], hx =>
      obtain ⟨-, rfl, -⟩ : _ ∧ b = Byte.slash ∧ [] = x := by simpa using hx
      exact absurd rfl hb
    | _ :: _ :: a, hx =>
      obtain ⟨rfl, rfl, rfl⟩ : _ ∧ _ ∧ a ++ [b] = x := by simpa using hx
      obtain ⟨code', rfl, ha⟩ := ih rfl
      exact ⟨_, (List.append_assoc ..).symm, .closing ha⟩

/-- Bytes without a slash at the end of what is read are code. -/
theorem append_inv {a u : Text} (h : Reads m (a ++ u) code) (hu : ∀ b ∈ u, b ≠ Byte.slash) :
    ∃ code', code = code' ++ u ∧ Reads m a code' := by
  induction u using List.reverseRecOn generalizing code with
  | nil => exact ⟨code, by simp, by simpa using h⟩
  | append_singleton u b ih =>
    rw [← List.append_assoc] at h
    obtain ⟨code', rfl, h'⟩ := h.snoc_inv (hu b (by simp))
    obtain ⟨code'', rfl, h''⟩ := ih h' fun c hc => hu c (by simp [hc])
    exact ⟨code'', List.append_assoc .., h''⟩

/-- Bytes without a slash at the front of what is read are code. -/
theorem append_left_inv {u : Text} (h : Reads .code (u ++ x) code)
    (hu : ∀ b ∈ u, b ≠ Byte.slash) : ∃ code', code = u ++ code' ∧ Reads .code x code' := by
  induction u generalizing code with
  | nil => exact ⟨code, rfl, h⟩
  | cons b u ih =>
    rw [List.cons_append] at h
    generalize hrest : u ++ x = y at h
    cases h with
    | byte _ hy =>
      subst hrest
      obtain ⟨code', rfl, hx⟩ := ih hy fun c hc => hu c (List.mem_cons_of_mem _ hc)
      exact ⟨code', rfl, hx⟩
    | opening => exact absurd rfl (hu _ List.mem_cons_self)

/-! ### Text without comments -/

theorem of_noSlash (hx : ∀ b ∈ x, b ≠ Byte.slash) : Reads .code x x := by
  induction x with
  | nil => exact .nil
  | cons b x ih =>
    exact .byte (fun hopens => hx b List.mem_cons_self hopens.1)
      (ih fun c hc => hx c (List.mem_cons_of_mem _ hc))

theorem append {y code' : Text} (h : Reads m x code) (hy : Reads .code y code')
    (hjoin : code.getLast? = some Byte.slash → ¬ Opens Byte.slash y) :
    Reads m (x ++ y) (code ++ code') := by
  induction h with
  | nil => exact hy
  | @byte b x code hopens hx ih =>
    refine .byte ?_ (ih fun hlast => hjoin (by simp [List.getLast?_cons, hlast]))
    rintro ⟨rfl, hhead⟩
    cases x with
    | nil =>
      rw [hx.eq_nil] at hjoin
      exact hjoin rfl ⟨rfl, by simpa using hhead⟩
    | cons c x => exact hopens ⟨rfl, by simpa using hhead⟩
  | opening _ ih => exact .opening (ih hjoin)
  | @inside width b x code hcloses hx ih =>
    refine .inside ?_ (ih hjoin)
    rintro ⟨rfl, hhead⟩
    obtain ⟨c, x', rfl⟩ := List.exists_cons_of_ne_nil hx.ne_nil
    exact hcloses ⟨rfl, by simpa using hhead⟩
  | closing _ ih =>
    rw [List.append_assoc]
    exact .closing (ih fun hlast => hjoin (by simp [List.getLast?_append, hlast]))

/-- Where a comment ends, the code has a space in the place of a star. -/
theorem exists_star {width : Nat} (h : Reads (.block width) x code) :
    ∃ i, x[i]? = some Byte.star ∧ code[width + i]? = some Byte.space := by
  generalize hm : Mode.block width = m at h
  induction h generalizing width with
  | nil => cases hm
  | byte => cases hm
  | opening => cases hm
  | inside _ _ ih =>
    obtain rfl := Mode.block.inj hm
    obtain ⟨i, hx, hcode⟩ := ih rfl
    exact ⟨i + 1, by simpa using hx, by rwa [Nat.add_right_comm] at hcode⟩
  | closing =>
    obtain rfl := Mode.block.inj hm
    exact ⟨0, rfl, by simp [List.getElem?_append]⟩

/-- A text that is its own code is read from code on. -/
theorem mode_eq_code (h : Reads m x x) : m = .code := by
  cases m with
  | code => rfl
  | block width =>
    have hlength := h.length_eq
    obtain rfl : width = 0 := by simpa [Mode.width] using hlength
    obtain ⟨i, hstar, hspace⟩ := h.exists_star
    rw [Nat.zero_add, hstar] at hspace
    exact absurd (Option.some.inj hspace) (by decide)

/-- So are its parts. -/
theorem self_append {u v : Text} (h : Reads .code (u ++ v) (u ++ v)) :
    Reads .code u u ∧ Reads .code v v := by
  induction u with
  | nil => exact ⟨.nil, h⟩
  | cons b u ih =>
    rw [List.cons_append] at h
    generalize hrest : u ++ v = y at h
    cases h with
    | byte hopens hy =>
      subst hrest
      obtain ⟨hu, hv⟩ := ih hy
      exact ⟨.byte (not_opens_of_append hopens) hu, hv⟩
    | opening hy =>
      obtain ⟨i, hstar, hspace⟩ := hy.exists_star
      rw [Nat.add_comm] at hspace
      exact absurd (hstar.symm.trans hspace) (by decide)

end Reads

/-! ## Finding the text of code -/

/-- Before a byte of code that is no space, everything is read up to a point outside comments. -/
theorem exists_reads {m : Mode} {x before after : Text} {b : UInt8} {opened : Bool}
    (h : strip m x = (before ++ b :: after, opened)) (hb : b ≠ Byte.space) :
    ∃ a y, x = a ++ b :: y ∧ Reads m a before ∧ strip .code y = (after, opened) := by
  fun_induction strip m x generalizing before with
  | case1 => simp at h
  | case2 => simp at h
  | case3 rest ih =>
    obtain ⟨a, y, rfl, ha, hy⟩ := ih h
    exact ⟨_ :: _ :: a, y, rfl, .opening ha, hy⟩
  | case4 c rest hslash hstar code opened' hrest ih =>
    have hopens : ¬ Opens c rest := by
      rintro ⟨rfl, hhead | hhead⟩
      · obtain ⟨tail, rfl⟩ := List.head?_eq_some_iff.1 hhead
        exact hslash tail rfl rfl
      · obtain ⟨tail, rfl⟩ := List.head?_eq_some_iff.1 hhead
        exact hstar tail rfl rfl
    obtain ⟨hcode, rfl⟩ := Prod.mk.inj h
    cases before with
    | nil =>
      obtain ⟨rfl, rfl⟩ := List.cons.inj hcode
      exact ⟨[], rest, rfl, .nil, hrest⟩
    | cons c' before =>
      obtain ⟨rfl, hcode'⟩ := List.cons.inj hcode
      obtain ⟨a, y, rfl, ha, hy⟩ := ih (hrest.trans (congrArg (·, opened') hcode'))
      exact ⟨c :: a, y, rfl, .byte (not_opens_of_append hopens) ha, hy⟩
  | case5 => simp at h
  | case6 width rest code opened' hrest ih =>
    obtain ⟨hcode, rfl⟩ := Prod.mk.inj h
    -- the byte is none of the spaces that stand for the comment
    have hfront : ∃ mid, before = List.replicate (width + 2) Byte.space ++ mid ∧
        code = mid ++ b :: after := by
      rcases List.append_eq_append_iff.1 hcode with hfront | ⟨mid, hspaces, hmid⟩
      · exact hfront
      · cases mid with
        | nil => exact ⟨[], by simpa using hspaces.symm, by simpa using hmid.symm⟩
        | cons c mid =>
          obtain ⟨rfl, -⟩ := List.cons.inj hmid
          have hmem : b ∈ List.replicate (width + 2) Byte.space := by simp [hspaces]
          exact absurd (List.eq_of_mem_replicate hmem) hb
    obtain ⟨mid, rfl, hcode'⟩ := hfront
    obtain ⟨a, y, rfl, ha, hy⟩ := ih (hrest.trans (congrArg (·, opened') hcode'))
    exact ⟨_ :: _ :: a, y, rfl, .closing ha, hy⟩
  | case7 width c rest hcloses ih =>
    have hcloses' : ¬ Closes c rest := by
      rintro ⟨rfl, hhead⟩
      obtain ⟨tail, rfl⟩ := List.head?_eq_some_iff.1 hhead
      exact hcloses tail rfl rfl
    obtain ⟨a, y, rfl, ha, hy⟩ := ih h
    exact ⟨c :: a, y, rfl, .inside (not_closes_of_append hcloses') ha, hy⟩

/-- In code, bytes that are no spaces stand for themselves. -/
theorem strip_append_inv {x w after : Text} {opened : Bool}
    (h : strip .code x = (w ++ after, opened)) (hw : ∀ b ∈ w, b ≠ Byte.space) :
    ∃ y, x = w ++ y ∧ strip .code y = (after, opened) := by
  induction w generalizing x with
  | nil => exact ⟨x, rfl, h⟩
  | cons b w ih =>
    have hcode : strip .code x = ([] ++ b :: (w ++ after), opened) := h
    obtain ⟨a, y, rfl, ha, hy⟩ := exists_reads hcode (hw b List.mem_cons_self)
    have hlength : 0 = 0 + a.length := ha.length_eq
    have hnil : a = [] := List.length_eq_zero_iff.1 (by omega)
    obtain ⟨z, rfl, hz⟩ := ih hy fun c hc => hw c (List.mem_cons_of_mem _ hc)
    exact ⟨z, by rw [hnil]; rfl, hz⟩

/-- **What stands in the code stands in the text,** at the same offset, as long as it has no spaces;
    and the text behind it is read as code. -/
theorem exists_text {m : Mode} {x before w after : Text} {opened : Bool}
    (h : strip m x = (before ++ (w ++ after), opened)) (hne : w ≠ [])
    (hw : ∀ b ∈ w, b ≠ Byte.space) :
    ∃ a y, x = a ++ (w ++ y) ∧ Reads m a before ∧ strip .code y = (after, opened) := by
  obtain ⟨b, w', rfl⟩ := List.exists_cons_of_ne_nil hne
  obtain ⟨a, y, rfl, ha, hy⟩ := exists_reads h (hw b List.mem_cons_self)
  obtain ⟨z, rfl, hz⟩ := strip_append_inv hy fun c hc => hw c (List.mem_cons_of_mem _ hc)
  exact ⟨a, z, rfl, ha, hz⟩

end ModifierToggle.Comment
