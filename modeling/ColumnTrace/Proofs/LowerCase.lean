import ColumnTrace.Text.Case
import Mathlib.Data.List.Basic

/-!
# Lower case

Lower case writes each character on its own, but for the capital sigma, which looks at what stands
around it. How much it writes depends on the characters alone (`length_lowerAfter`), so that a text
with more characters has more in lower case as well. What it writes is small: lower case leaves it
as it is (`isSmall_of_mem_lowerChar`), so that putting a text in lower case twice comes to the same
as once.
-/

set_option autoImplicit false

namespace ColumnTrace.Text

/-! ## One character -/

/-- The capital sigma, the one letter whose lower case form depends on the letters around it. -/
def capitalSigma : Char := 'Σ'

/-- The capital sigma is told by its number. -/
theorem toNat_eq_sigma {c : Char} : c.toNat = 0x3a3 ↔ c = capitalSigma := by
  constructor
  · exact fun h => Char.ext (UInt32.toNat.inj h)
  · rintro rfl
    rfl

/-- No character but the capital sigma looks at what stands around it. -/
theorem lowerChar_eq {c : Char} (h : c ≠ capitalSigma) (before after : List Char) :
    lowerChar before c after = lowerChar [] c [] := by
  have hsigma : (c.toNat == 0x3a3) = false :=
    beq_eq_false_iff_ne.2 fun heq => h (toNat_eq_sigma.1 heq)
  simp only [lowerChar, hsigma, Bool.false_eq_true, if_false]

/-- What stands around a character does not change how much is written for it. -/
theorem length_lowerChar (before : List Char) (c : Char) (after : List Char) :
    (lowerChar before c after).length = (lowerChar [] c []).length := by
  by_cases h : c = capitalSigma
  · subst h
    rfl
  · rw [lowerChar_eq h]

/-- Something is written for every character. -/
theorem length_lowerChar_pos (before : List Char) (c : Char) (after : List Char) :
    0 < (lowerChar before c after).length := by
  simp only [lowerChar]
  split_ifs <;> simp

/-- Lower case leaves the character as it is. -/
def isSmall (c : Char) : Bool := lowerChar [] c [] == [c]

/-- A small character stays, whatever stands around it. -/
theorem lowerChar_of_isSmall {c : Char} (h : isSmall c = true) (before after : List Char) :
    lowerChar before c after = [c] := by
  have hne : c ≠ capitalSigma := by
    rintro rfl
    exact absurd h (by decide)
  rw [lowerChar_eq hne]
  exact beq_iff_eq.1 h

/-! ## What a table of shifts writes -/

/-- The code points that a shift writes. -/
def Shift.codes (shift : Shift) : List Nat :=
  ((List.range (shift.last + 1 - shift.first)).filter (· % shift.step == 0)).map fun i =>
    ((shift.first + i : Nat) + shift.distance).toNat

/-- A character that no shift covers stays; any other one becomes what a shift writes. -/
theorem shifted_mem_codes (shifts : List Shift) (c : Char) :
    ((∀ shift ∈ shifts, shift.covers c = false) ∧ shifted shifts c = c) ∨
      ∃ shift ∈ shifts, ∃ n ∈ shift.codes, shifted shifts c = Char.ofNat n := by
  rw [shifted]
  cases hfind : shifts.find? (·.covers c) with
  | none => exact Or.inl ⟨by simpa using List.find?_eq_none.1 hfind, rfl⟩
  | some shift =>
    have hcovers := List.find?_some hfind
    simp only [Shift.covers, Bool.and_eq_true, decide_eq_true_eq, beq_iff_eq] at hcovers
    obtain ⟨⟨hfirst, hlast⟩, hstep⟩ := hcovers
    refine Or.inr ⟨shift, List.mem_of_find?_eq_some hfind, _, List.mem_map.2
      ⟨c.toNat - shift.first, List.mem_filter.2 ⟨List.mem_range.2 ?_, beq_iff_eq.2 hstep⟩, rfl⟩, ?_⟩
    · omega
    · rw [Nat.add_sub_cancel' hfirst]

/-- What a shift writes lies between its shifted ends. -/
theorem Shift.bounds_of_mem_codes {shift : Shift} {n : Nat} (h : n ∈ shift.codes) :
    ((shift.first : Int) + shift.distance).toNat ≤ n ∧
      n ≤ ((shift.last : Int) + shift.distance).toNat := by
  obtain ⟨i, hi, rfl⟩ := List.mem_map.1 h
  have hrange := List.mem_range.1 (List.mem_filter.1 hi).1
  omega

/-- Nothing that the first shift writes is covered by the second: all of it lies below, or above, or
between the steps. -/
def Shift.writesBeside (s t : Shift) : Bool :=
  Nat.blt ((s.last : Int) + s.distance).toNat t.first ||
    (Nat.blt t.last ((s.first : Int) + s.distance).toNat ||
      s.codes.all fun n => !(t.first ≤ n && n ≤ t.last && (n - t.first) % t.step == 0))

/-- A shift does not cover what another one writes beside it. -/
theorem Shift.not_covers_of_writesBeside {s t : Shift} (h : s.writesBeside t = true) {n : Nat}
    (hn : n ∈ s.codes) {c : Char} (hc : c.toNat = n) : t.covers c = false := by
  obtain ⟨hlow, hhigh⟩ := bounds_of_mem_codes hn
  rw [writesBeside, Bool.or_eq_true, Bool.or_eq_true, Nat.blt_eq, Nat.blt_eq] at h
  rw [covers, hc]
  rcases h with h | h | h
  · rw [decide_eq_false (by omega), Bool.false_and, Bool.false_and]
  · rw [decide_eq_false (p := n ≤ t.last) (by omega), Bool.and_false, Bool.false_and]
  · exact Bool.not_eq_true' _ ▸ List.all_eq_true.1 h n hn

/-- A second time through the table changes nothing. -/
theorem toLower_writesBeside :
    (CaseTable.toLower.all fun s => CaseTable.toLower.all s.writesBeside) = true := by
  decide +kernel

/-- What the table writes are characters. It writes no letter with a rule of its own, and of ASCII
only what is small. -/
theorem toLower_codes : (CaseTable.toLower.all fun s => s.codes.all fun n =>
    (n < 0xd800 || 0xdfff < n && n < 0x110000) &&
      if n < 128 then isSmall (Char.ofNat n) else n != 0x3a3 && n != 0x130) = true := by
  decide +kernel

/-- A character that no shift covers is small, those with a rule of their own apart. -/
theorem isSmall_of_not_covers {c : Char} (hascii : ¬ c.toNat < 128) (hsigma : c.toNat ≠ 0x3a3)
    (hdotted : c.toNat ≠ 0x130) (h : ∀ shift ∈ CaseTable.toLower, shift.covers c = false) :
    isSmall c = true := by
  have hfind : CaseTable.toLower.find? (·.covers c) = none := by simpa using h
  simp only [isSmall, lowerChar, if_neg hascii, beq_false_of_ne hsigma, beq_false_of_ne hdotted,
    shifted, hfind, Bool.false_eq_true, if_false, beq_self_eq_true]

/-- What the table writes is small. -/
theorem isSmall_shifted {c : Char} (hascii : ¬ c.toNat < 128) (hsigma : c.toNat ≠ 0x3a3)
    (hdotted : c.toNat ≠ 0x130) : isSmall (shifted CaseTable.toLower c) = true := by
  rcases shifted_mem_codes CaseTable.toLower c with ⟨h, hsame⟩ | ⟨s, hs, n, hn, hcode⟩
  · rw [hsame]
    exact isSmall_of_not_covers hascii hsigma hdotted h
  · rw [hcode]
    have hcodes := List.all_eq_true.1 (List.all_eq_true.1 toLower_codes s hs) n hn
    simp only [Bool.and_eq_true, Bool.or_eq_true, decide_eq_true_eq] at hcodes
    obtain ⟨hvalid, hrest⟩ := hcodes
    have htoNat : (Char.ofNat n).toNat = n := by
      rw [Char.ofNat, dif_pos hvalid]
      rfl
    split at hrest
    · exact hrest
    · next hn128 =>
      simp only [Bool.and_eq_true, bne_iff_ne] at hrest
      refine isSmall_of_not_covers (by omega) (by omega) (by omega) fun t ht => ?_
      exact Shift.not_covers_of_writesBeside
        (List.all_eq_true.1 (List.all_eq_true.1 toLower_writesBeside s hs) t ht) hn htoNat

/-- What is written for a character of ASCII is small. -/
theorem ascii_toLower :
    ((List.range 128).all fun n => isSmall (Char.ofNat n).toLower) = true := by
  decide +kernel

/-- Lower case writes what is small. -/
theorem isSmall_of_mem_lowerChar {before after : List Char} {c d : Char}
    (h : d ∈ lowerChar before c after) : isSmall d = true := by
  simp only [lowerChar] at h
  split at h
  · next hascii =>
    obtain rfl := List.mem_singleton.1 h
    rw [← Char.ofNat_toNat c]
    exact List.all_eq_true.1 ascii_toLower c.toNat (List.mem_range.2 hascii)
  · next hascii =>
    split at h
    · obtain rfl := List.mem_singleton.1 h
      split <;> decide
    · next hsigma =>
      split at h
      · rcases List.mem_pair.1 h with rfl | rfl <;> decide
      · next hdotted =>
        obtain rfl := List.mem_singleton.1 h
        exact isSmall_shifted hascii (by simpa using hsigma) (by simpa using hdotted)

/-! ## Texts -/

/-- How many characters lower case writes for the characters. -/
def lowerWidth : List Char → Nat
  | [] => 0
  | c :: rest => (lowerChar [] c []).length + lowerWidth rest

/-- A text has its width in lower case, wherever it stands. -/
theorem length_lowerAfter (before cs : List Char) :
    (lowerAfter before cs).length = lowerWidth cs := by
  induction cs generalizing before with
  | nil => rfl
  | cons c rest ih =>
    rw [lowerAfter, List.length_append, length_lowerChar, ih, lowerWidth]

/-- Leaving characters out of a text makes it shorter in lower case. -/
theorem lowerWidth_of_sublist {cs ds : List Char} (h : cs.Sublist ds) :
    lowerWidth cs + ds.length ≤ lowerWidth ds + cs.length := by
  induction h with
  | slnil => exact Nat.le_refl _
  | cons c _ ih =>
    have := length_lowerChar_pos [] c []
    simp only [lowerWidth, List.length_cons]
    omega
  | cons_cons c _ ih =>
    simp only [lowerWidth, List.length_cons]
    omega

/-- A part of a text that is as wide in lower case is the whole text. -/
theorem eq_of_sublist_of_lowerWidth {cs ds : List Char} (h : cs.Sublist ds)
    (hwidth : lowerWidth ds ≤ lowerWidth cs) : cs = ds :=
  h.eq_of_length_le (by have := lowerWidth_of_sublist h; omega)

/-- Everything in a text in lower case is small. -/
theorem isSmall_of_mem_lowerAfter {before cs : List Char} {d : Char}
    (h : d ∈ lowerAfter before cs) : isSmall d = true := by
  induction cs generalizing before with
  | nil => cases h
  | cons c rest ih =>
    rcases List.mem_append.1 h with h | h
    · exact isSmall_of_mem_lowerChar h
    · exact ih h

/-- Lower case leaves a text of small characters as it is. -/
theorem lowerAfter_of_isSmall {cs : List Char} (h : ∀ c ∈ cs, isSmall c = true)
    (before : List Char) : lowerAfter before cs = cs := by
  induction cs generalizing before with
  | nil => rfl
  | cons c rest ih =>
    rw [lowerAfter, lowerChar_of_isSmall (h c List.mem_cons_self), List.singleton_append,
      ih fun d hd => h d (List.mem_cons_of_mem c hd)]

/-- A small character of a text is there in lower case. -/
theorem mem_lowerAfter_of_isSmall {cs : List Char} {c : Char} (hsmall : isSmall c = true)
    (h : c ∈ cs) (before : List Char) : c ∈ lowerAfter before cs := by
  induction cs generalizing before with
  | nil => cases h
  | cons d rest ih =>
    rcases List.mem_cons.1 h with rfl | h
    · rw [lowerAfter, lowerChar_of_isSmall hsmall]
      exact List.mem_append_left _ (List.mem_singleton_self c)
    · exact List.mem_append_right _ (ih h _)

end ColumnTrace.Text
