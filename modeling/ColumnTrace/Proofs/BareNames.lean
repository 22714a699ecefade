import ColumnTrace.Identifier
import ColumnTrace.Proofs.LowerCase
import Mathlib.Data.List.DropRight

/-!
# Names without the marks around them

Names are compared without the blanks, backticks and double quotes around them. A qualified name
has parts, and the marks may be taken off each part before the parts are put together, or off the
whole afterwards. The first takes off more: the marks where two parts meet stand inside the whole.
`bare_joinBy_iff` says when both come to the same; `lower_bare_joinBy_iff` and
`lower_bare_joinBy_again_iff` add the lower case, which for a capital sigma depends on what follows,
and a second time of taking off marks.
-/

set_option autoImplicit false

namespace ColumnTrace

open Text

/-! ## Marks at the ends -/

/-- The character is one of those that are taken off the ends of names. -/
def isNameMark (c : Char) : Bool := isBlank c || c == '\x60' || c == '"'

/-- The characters without the marks at the start: blanks, then backticks, then double quotes. -/
def bareStart (cs : List Char) : List Char :=
  ((cs.dropWhile isBlank).dropWhile (· == '\x60')).dropWhile (· == '"')

/-- The characters without the marks at the end. -/
def bareEnd (cs : List Char) : List Char :=
  ((cs.rdropWhile isBlank).rdropWhile (· == '\x60')).rdropWhile (· == '"')

/-- The characters without the marks at both ends. -/
def bare (cs : List Char) : List Char := bareEnd (bareStart cs)

/-- No mark stands at the start. -/
def StartsBare (cs : List Char) : Prop := ∀ c ∈ cs.head?, isNameMark c = false

/-- No mark stands at the end. -/
def EndsBare (cs : List Char) : Prop := ∀ c ∈ cs.getLast?, isNameMark c = false

-- decided by a look at the one character, not by trying all there are
instance (cs : List Char) : Decidable (StartsBare cs) :=
  decidable_of_iff ((cs.head?.all fun c => !isNameMark c) = true) <| by
    simp [StartsBare, Option.all_eq_true]

instance (cs : List Char) : Decidable (EndsBare cs) :=
  decidable_of_iff ((cs.getLast?.all fun c => !isNameMark c) = true) <| by
    simp [EndsBare, Option.all_eq_true]

section
variable {p q : Char → Bool} {c : Char} {xs ys : List Char}

/-- What is taken off at the one end does not depend on what is taken off at the other. -/
theorem dropWhile_rdropWhile (p q : Char → Bool) (cs : List Char) :
    (cs.rdropWhile q).dropWhile p = (cs.dropWhile p).rdropWhile q := by
  induction cs using List.reverseRecOn with
  | nil => rfl
  | append_singleton rest c ih =>
    rw [List.rdropWhile_concat, List.dropWhile_append]
    by_cases hq : q c
    · rw [if_pos hq, ih]
      split
      · next h =>
        rw [List.isEmpty_iff.1 h]
        by_cases hp : p c <;> simp [hp, hq]
      · rw [List.rdropWhile_concat_pos q _ c hq]
    · rw [if_neg hq, List.dropWhile_append]
      split
      · by_cases hp : p c <;> simp [hp, hq, List.rdropWhile_singleton]
      · rw [List.rdropWhile_concat_neg q _ c hq]

/-- Dropping from the front ends at a character that stays. -/
theorem dropWhile_append_cons (h : p c = false) :
    (xs ++ c :: ys).dropWhile p = xs.dropWhile p ++ c :: ys := by
  induction xs with
  | nil => simp [h]
  | cons x rest ih => by_cases hx : p x <;> simp [hx, ih]

/-- Dropping from the end ends at a character that stays. -/
theorem rdropWhile_append_cons (h : p c = false) :
    (xs ++ c :: ys).rdropWhile p = xs ++ c :: ys.rdropWhile p := by
  simp [List.rdropWhile, dropWhile_append_cons h]

end

section
variable {c : Char} {cs xs ys : List Char}

theorem bareEnd_eq_reverse (cs : List Char) : bareEnd cs = (bareStart cs.reverse).reverse := by
  simp only [bareEnd, bareStart, List.rdropWhile, List.reverse_reverse]

theorem bareStart_bareEnd (cs : List Char) : bareStart (bareEnd cs) = bare cs := by
  simp only [bare, bareStart, bareEnd, dropWhile_rdropWhile]

/-- The form in which names are compared is the lower case of the name without its marks. -/
theorem normalize_eq (name : String) :
    normalize name = String.ofList (lowerAfter [] (bare name.toList)) := by
  have htrimmed : ∀ p cs, trimmed p cs = (cs.dropWhile p).rdropWhile p := fun _ _ => rfl
  simp only [normalize, lower, String.toList_ofList, htrimmed, bare, bareStart, bareEnd,
    dropWhile_rdropWhile]

theorem bareStart_sublist (cs : List Char) : (bareStart cs).Sublist cs :=
  (List.dropWhile_sublist _).trans ((List.dropWhile_sublist _).trans (List.dropWhile_sublist _))

theorem bareEnd_sublist (cs : List Char) : (bareEnd cs).Sublist cs := by
  rw [bareEnd_eq_reverse]
  simpa using (bareStart_sublist cs.reverse).reverse

theorem bare_sublist_bareStart (cs : List Char) : (bare cs).Sublist (bareStart cs) :=
  bareEnd_sublist _

theorem bare_sublist_bareEnd (cs : List Char) : (bare cs).Sublist (bareEnd cs) :=
  bareStart_bareEnd cs ▸ bareStart_sublist _

theorem bare_sublist (cs : List Char) : (bare cs).Sublist cs :=
  (bare_sublist_bareStart cs).trans (bareStart_sublist cs)

theorem isNameMark_eq_false : isNameMark c = false ↔
    isBlank c = false ∧ (c == '\x60') = false ∧ (c == '"') = false := by
  simp only [isNameMark, Bool.or_eq_false_iff, and_assoc]

/-- Nothing before a character that is no mark changes what stands behind it. -/
theorem bareStart_append_cons (h : isNameMark c = false) :
    bareStart (xs ++ c :: ys) = bareStart xs ++ c :: ys := by
  obtain ⟨hblank, hbacktick, hquote⟩ := isNameMark_eq_false.1 h
  simp only [bareStart, dropWhile_append_cons, hblank, hbacktick, hquote]

/-- Marks are taken off the end only as far as a character that is none. -/
theorem bareEnd_append_cons (h : isNameMark c = false) :
    bareEnd (xs ++ c :: ys) = xs ++ c :: bareEnd ys := by
  obtain ⟨hblank, hbacktick, hquote⟩ := isNameMark_eq_false.1 h
  simp only [bareEnd, rdropWhile_append_cons, hblank, hbacktick, hquote]

/-- A mark at the start is taken off. -/
theorem bareStart_cons_sublist (h : isNameMark c = true) : (bareStart (c :: cs)).Sublist cs := by
  have hdrop : ∀ (p : Char → Bool) (xs : List Char), (xs.dropWhile p).Sublist xs :=
    fun p _ => List.dropWhile_sublist p
  simp only [isNameMark, Bool.or_eq_true] at h
  simp only [bareStart]
  by_cases hblank : isBlank c = true
  · rw [List.dropWhile_cons, if_pos hblank]
    exact (hdrop _ _).trans ((hdrop _ _).trans (hdrop _ _))
  · rw [List.dropWhile_cons, if_neg hblank]
    by_cases hbacktick : (c == '\x60') = true
    · rw [List.dropWhile_cons, if_pos hbacktick]
      exact (hdrop _ _).trans (hdrop _ _)
    · have hquote : (c == '"') = true := h.resolve_left fun h => h.elim hblank hbacktick
      rw [List.dropWhile_cons, if_neg hbacktick, List.dropWhile_cons, if_pos hquote]
      exact hdrop _ _

/-- A text that keeps its start has no mark there. -/
theorem bareStart_eq_self_iff : bareStart cs = cs ↔ StartsBare cs := by
  cases cs with
  | nil => exact ⟨fun _ c hc => (Option.not_mem_none c hc).elim, fun _ => rfl⟩
  | cons c rest =>
    have hstarts : StartsBare (c :: rest) ↔ isNameMark c = false := by simp [StartsBare]
    rw [hstarts]
    constructor
    · intro h
      by_contra hmark
      have hsublist : (bareStart (c :: rest)).Sublist rest :=
        bareStart_cons_sublist (by simpa using hmark)
      rw [h] at hsublist
      exact absurd hsublist.length_le (by simp)
    · exact fun h => @bareStart_append_cons c [] rest h

/-- A text that keeps its end has no mark there. -/
theorem bareEnd_eq_self_iff : bareEnd cs = cs ↔ EndsBare cs := by
  rw [bareEnd_eq_reverse, List.reverse_eq_iff, bareStart_eq_self_iff, StartsBare, EndsBare,
    List.head?_reverse]

/-- Taking the marks off the end leaves the start as it is, as long as something is left. -/
theorem startsBare_bareEnd (h : bareEnd cs ≠ []) : StartsBare (bareEnd cs) ↔ StartsBare cs := by
  have hprefix : bareEnd cs <+: cs := (List.rdropWhile_prefix _ _).trans
    ((List.rdropWhile_prefix _ _).trans (List.rdropWhile_prefix _ _))
  obtain ⟨rest, hrest⟩ := hprefix
  rw [StartsBare, StartsBare, ← List.head?_append_of_ne_nil _ h, hrest]

/-- Marks that are taken off the start leave the end as it is. -/
theorem endsBare_bareStart (h : bareStart cs ≠ []) : EndsBare (bareStart cs) ↔ EndsBare cs := by
  have hsuffix : bareStart cs <:+ cs := (List.dropWhile_suffix _).trans
    ((List.dropWhile_suffix _).trans (List.dropWhile_suffix _))
  obtain ⟨rest, hrest⟩ := hsuffix
  rw [EndsBare, EndsBare, ← List.getLast?_append_of_ne_nil rest h, hrest]

/-- Nothing is taken off if and only if no mark stands at either end. -/
theorem bare_eq_self_iff : bare cs = cs ↔ StartsBare cs ∧ EndsBare cs := by
  rw [← bareStart_eq_self_iff, ← bareEnd_eq_self_iff]
  constructor
  · intro h
    have hstart := bare_sublist_bareStart cs
    have hend := bare_sublist_bareEnd cs
    rw [h] at hstart hend
    exact ⟨(bareStart_sublist cs).antisymm hstart, (bareEnd_sublist cs).antisymm hend⟩
  · rintro ⟨hstart, hend⟩
    rw [bare, hstart, hend]

end

/-! ## Parts of a qualified name -/

/-- Where the one part ends and the next one starts, there are no marks. -/
def Meet (p q : List Char) : Prop := EndsBare p ∧ StartsBare q
deriving Decidable

/-- Something is left of a part without its marks, and no dot stands in it. -/
structure IsPart (p : List Char) : Prop where
  bare_ne_nil : bare p ≠ []
  no_dot : '.' ∉ p

theorem IsPart.no_dot_bare {p : List Char} (h : IsPart p) : '.' ∉ bare p :=
  fun hdot => h.no_dot ((bare_sublist p).mem hdot)

section
variable {p q : List Char} {pieces rest : List (List Char)}

/-- Texts with a separator in them are the same if and only if what stands before the first one and
what stands behind it are. -/
theorem append_separator_inj {separator : Char} {xs ys : List Char} (hp : separator ∉ p)
    (hq : separator ∉ q) : p ++ separator :: xs = q ++ separator :: ys ↔ p = q ∧ xs = ys := by
  constructor
  · intro h
    have hcut := congrArg (cutAt separator) h
    rw [cutAt_append_separator xs hp, cutAt_append_separator ys hq] at hcut
    obtain ⟨rfl, hrest⟩ := List.cons.inj hcut
    exact ⟨rfl, by rw [← joinBy_cutAt separator xs, hrest, joinBy_cutAt]⟩
  · rintro ⟨rfl, rfl⟩
    rfl

/-- The first of several bare parts stands before the first dot. -/
theorem joinBy_map_bare_cons (p q : List Char) (rest : List (List Char)) :
    joinBy '.' ((p :: q :: rest).map bare) = bare p ++ '.' :: joinBy '.' ((q :: rest).map bare) :=
  rfl

/-- Marks that are taken off the end of several parts leave the first part as it is. -/
theorem bareEnd_joinBy_cons (p q : List Char) (rest : List (List Char)) :
    bareEnd (joinBy '.' (p :: q :: rest)) = p ++ '.' :: bareEnd (joinBy '.' (q :: rest)) :=
  bareEnd_append_cons (by decide)

/-- Of several parts the first loses the marks at its start, and the others those at the end. -/
theorem bare_joinBy_cons (p q : List Char) (rest : List (List Char)) :
    bare (joinBy '.' (p :: q :: rest)) =
      bareStart p ++ '.' :: bareEnd (joinBy '.' (q :: rest)) := by
  rw [← bareStart_bareEnd, bareEnd_joinBy_cons, bareStart_append_cons (by decide)]

/-- The marks at the end of a row of parts are all that stands around them if and only if none
stands at its start and none where two parts meet. -/
theorem bareEnd_joinBy_iff (h : ∀ piece ∈ q :: rest, IsPart piece) :
    bareEnd (joinBy '.' (q :: rest)) = joinBy '.' ((q :: rest).map bare) ↔
      StartsBare q ∧ (q :: rest).IsChain Meet := by
  induction rest generalizing q with
  | nil =>
    have hne : bareEnd q ≠ [] := fun hnil =>
      (h q List.mem_cons_self).bare_ne_nil (List.sublist_nil.1 (hnil ▸ bare_sublist_bareEnd q))
    rw [and_iff_left (.singleton q), List.map_singleton, joinBy, joinBy, ← bareStart_bareEnd,
      eq_comm, bareStart_eq_self_iff, startsBare_bareEnd hne]
  | cons r rest ih =>
    obtain ⟨hq, hrest⟩ := List.forall_mem_cons.1 h
    rw [bareEnd_joinBy_cons, joinBy_map_bare_cons, append_separator_inj hq.no_dot hq.no_dot_bare,
      ih hrest, eq_comm, bare_eq_self_iff,
      List.isChain_cons_cons, Meet]
    tauto

/-- Taking the marks off the whole takes them off each part if and only if no marks stand where two
parts meet. -/
theorem bare_joinBy_iff (h : ∀ piece ∈ pieces, IsPart piece) :
    bare (joinBy '.' pieces) = joinBy '.' (pieces.map bare) ↔ pieces.IsChain Meet := by
  match pieces, h with
  | [], _ => exact iff_of_true rfl .nil
  | [p], _ => exact iff_of_true rfl (.singleton p)
  | p :: q :: rest, h =>
    obtain ⟨hp, hrest⟩ := List.forall_mem_cons.1 h
    have hne : bareStart p ≠ [] := fun hnil =>
      hp.bare_ne_nil (List.sublist_nil.1 (hnil ▸ bare_sublist_bareStart p))
    have hdot : '.' ∉ bareStart p := fun hdot => hp.no_dot ((bareStart_sublist p).mem hdot)
    rw [bare_joinBy_cons, joinBy_map_bare_cons, append_separator_inj hdot hp.no_dot_bare,
      bareEnd_joinBy_iff hrest, eq_comm, bare,
      bareEnd_eq_self_iff, endsBare_bareStart hne, List.isChain_cons_cons, Meet]
    tauto

/-- What is bare part by part has lost at least the marks at the end. -/
theorem joinBy_bare_sublist_bareEnd (q : List Char) (rest : List (List Char)) :
    (joinBy '.' ((q :: rest).map bare)).Sublist (bareEnd (joinBy '.' (q :: rest))) := by
  induction rest generalizing q with
  | nil => exact bare_sublist_bareEnd q
  | cons r rest ih =>
    rw [bareEnd_joinBy_cons, joinBy_map_bare_cons]
    exact (bare_sublist q).append ((ih r).cons_cons '.')

/-- Whatever is taken off the whole is taken off the parts. -/
theorem joinBy_bare_sublist (pieces : List (List Char)) :
    (joinBy '.' (pieces.map bare)).Sublist (bare (joinBy '.' pieces)) := by
  match pieces with
  | [] => exact List.nil_sublist _
  | [p] => exact List.Sublist.refl _
  | p :: q :: rest =>
    rw [bare_joinBy_cons, joinBy_map_bare_cons]
    exact (bare_sublist_bareStart p).append ((joinBy_bare_sublist_bareEnd q rest).cons_cons '.')

/-! ## Lower case -/

/-- The parts in the form in which names are compared, put together. -/
def normalParts (pieces : List (List Char)) : List Char :=
  joinBy '.' (pieces.map fun p => lowerAfter [] (bare p))

/-- The widths of the parts of a text in lower case add up. -/
theorem lowerWidth_append (xs ys : List Char) :
    lowerWidth (xs ++ ys) = lowerWidth xs + lowerWidth ys := by
  induction xs with
  | nil => simp [lowerWidth]
  | cons c rest ih => rw [List.cons_append, lowerWidth, lowerWidth, ih, Nat.add_assoc]

/-- What stands in the whole is a separator or stands in a piece. -/
theorem mem_joinBy {c separator : Char} (h : c ∈ joinBy separator pieces) :
    c = separator ∨ ∃ piece ∈ pieces, c ∈ piece := by
  induction pieces with
  | nil => cases h
  | cons p rest ih =>
    cases rest with
    | nil => exact Or.inr ⟨p, List.mem_cons_self, h⟩
    | cons q rest =>
      rcases List.mem_append.1 h with h | h
      · exact Or.inr ⟨p, List.mem_cons_self, h⟩
      · rcases List.mem_cons.1 h with h | h
        · exact Or.inl h
        · exact (ih h).imp_right fun ⟨piece, hpiece, hc⟩ =>
            ⟨piece, List.mem_cons_of_mem p hpiece, hc⟩

/-- Parts in lower case are as long as their whole in lower case. -/
theorem length_joinBy_lowerAfter (pieces : List (List Char)) :
    (joinBy '.' (pieces.map (lowerAfter []))).length = lowerWidth (joinBy '.' pieces) := by
  induction pieces with
  | nil => rfl
  | cons p rest ih =>
    cases rest with
    | nil => exact length_lowerAfter [] p
    | cons q rest =>
      have hdot : ∀ cs, lowerWidth ('.' :: cs) = lowerWidth cs + 1 := fun cs => Nat.add_comm 1 _
      have hmapped : joinBy '.' ((p :: q :: rest).map (lowerAfter [])) =
          lowerAfter [] p ++ '.' :: joinBy '.' ((q :: rest).map (lowerAfter [])) := rfl
      rw [hmapped, joinBy, lowerWidth_append, hdot, ← ih, List.length_append, List.length_cons,
        length_lowerAfter]

/-- Normal parts are as long as the bare parts in lower case. -/
theorem length_normalParts (pieces : List (List Char)) :
    (normalParts pieces).length = lowerWidth (joinBy '.' (pieces.map bare)) := by
  rw [← length_joinBy_lowerAfter, List.map_map]
  rfl

/-- Normal parts are in lower case. -/
theorem isSmall_of_mem_normalParts {c : Char} (h : c ∈ normalParts pieces) : isSmall c = true := by
  rcases mem_joinBy h with rfl | ⟨piece, hpiece, hc⟩
  · decide
  · obtain ⟨p, -, rfl⟩ := List.mem_map.1 hpiece
    exact isSmall_of_mem_lowerAfter hc

/-- The form in which names are compared of the whole is that of its parts, put together, if and
only if no marks stand where two parts meet and lower case does not look beyond a part. -/
theorem lower_bare_joinBy_iff (h : ∀ piece ∈ pieces, IsPart piece) :
    lowerAfter [] (bare (joinBy '.' pieces)) = normalParts pieces ↔
      pieces.IsChain Meet ∧
        lowerAfter [] (joinBy '.' (pieces.map bare)) = normalParts pieces := by
  constructor
  · intro heq
    have hwidth : lowerWidth (bare (joinBy '.' pieces)) =
        lowerWidth (joinBy '.' (pieces.map bare)) := by
      rw [← length_lowerAfter [], heq, length_normalParts]
    have hsame := eq_of_sublist_of_lowerWidth (joinBy_bare_sublist pieces) hwidth.le
    exact ⟨(bare_joinBy_iff h).1 hsame.symm, hsame ▸ heq⟩
  · rintro ⟨hmeet, hlower⟩
    rw [(bare_joinBy_iff h).2 hmeet, hlower]

/-- With that form taken once more of the parts that are put together, there are no marks at the
ends of these either. -/
theorem lower_bare_joinBy_again_iff (h : ∀ piece ∈ pieces, IsPart piece) :
    lowerAfter [] (bare (joinBy '.' pieces)) = lowerAfter [] (bare (normalParts pieces)) ↔
      pieces.IsChain Meet ∧ (StartsBare (normalParts pieces) ∧ EndsBare (normalParts pieces)) ∧
        lowerAfter [] (joinBy '.' (pieces.map bare)) = normalParts pieces := by
  have hsmall : lowerAfter [] (bare (normalParts pieces)) = bare (normalParts pieces) :=
    lowerAfter_of_isSmall
      (fun c hc => isSmall_of_mem_normalParts ((bare_sublist _).mem hc)) []
  rw [hsmall]
  constructor
  · intro heq
    -- The marks that are taken off the whole are at most those around the parts, and the second
    -- time takes off more: as the lengths agree, nothing is taken off the second time.
    have hlength : (normalParts pieces).length ≤ (bare (normalParts pieces)).length := by
      have hwidth := lowerWidth_of_sublist (joinBy_bare_sublist pieces)
      have hshorter := (joinBy_bare_sublist pieces).length_le
      rw [length_normalParts, ← heq, length_lowerAfter]
      omega
    have hbare := (bare_sublist (normalParts pieces)).eq_of_length_le hlength
    obtain ⟨hmeet, hlower⟩ := (lower_bare_joinBy_iff h).1 (heq.trans hbare)
    exact ⟨hmeet, bare_eq_self_iff.1 hbare, hlower⟩
  · rintro ⟨hmeet, hends, hlower⟩
    rw [bare_eq_self_iff.2 hends]
    exact (lower_bare_joinBy_iff h).2 ⟨hmeet, hlower⟩

end

end ColumnTrace
