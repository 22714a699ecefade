import ColumnTrace.Proofs.Namespaces
import Mathlib.Data.List.Infix

/-!
# Texts and columns without a subquery's mark

A text mentions the mark if the segment that marks the columns of subqueries occurs in it. The mark
has no dots: it occurs in a dotted text only if it occurs in one of the parts
(`exists_mentionsMark_of_dotted`), and what is cut from a text mentions the mark only if the text
does. A column is unmarked if neither its qualifier nor its name mentions the mark.
-/

set_option autoImplicit false

namespace ColumnTrace

namespace Text

variable {separator : Char}

/-- What occurs in pieces with separators between them and has no separator occurs in a piece. -/
theorem exists_infix_of_infix_joinBy {word : List Char} (hne : word ≠ [])
    (hword : separator ∉ word) {pieces : List (List Char)}
    (h : word <:+: joinBy separator pieces) : ∃ piece ∈ pieces, word <:+: piece := by
  induction pieces with
  | nil => exact absurd (List.infix_nil.1 h) hne
  | cons piece rest ih =>
    cases rest with
    | nil => exact ⟨piece, List.mem_cons_self, h⟩
    | cons next rest =>
      have hrest : word <:+: joinBy separator (next :: rest) →
          ∃ found ∈ piece :: next :: rest, word <:+: found := by
        intro hinfix
        obtain ⟨found, hfound, hword⟩ := ih hinfix
        exact ⟨found, List.mem_cons_of_mem piece hfound, hword⟩
      rw [joinBy_cons_of_ne_nil separator piece (List.cons_ne_nil next rest)] at h
      rcases List.infix_append_iff.1 h with hfirst | hlast | ⟨start, tail, rfl, hstart, htail⟩
      · exact ⟨piece, List.mem_cons_self, hfirst⟩
      · rcases List.infix_cons_iff.1 hlast with hprefix | hinfix
        · obtain rfl | ⟨tail, rfl, -⟩ := List.prefix_cons_iff.1 hprefix
          · exact absurd rfl hne
          · exact absurd List.mem_cons_self hword
        · exact hrest hinfix
      · obtain rfl | ⟨tail, rfl, -⟩ := List.prefix_cons_iff.1 htail
        · rw [List.append_nil]
          exact ⟨piece, List.mem_cons_self, hstart.isInfix⟩
        · exact absurd (List.mem_append_right start List.mem_cons_self) hword

/-- A piece occurs in the text that is joined of it. -/
theorem infix_joinBy {pieces : List (List Char)} {piece : List Char} (h : piece ∈ pieces) :
    piece <:+: joinBy separator pieces := by
  induction pieces with
  | nil => cases h
  | cons first rest ih =>
    cases rest with
    | nil => exact List.mem_singleton.1 h ▸ List.infix_rfl
    | cons next rest =>
      rw [joinBy_cons_of_ne_nil separator first (List.cons_ne_nil next rest)]
      rcases List.mem_cons.1 h with rfl | hrest
      · exact (List.prefix_append _ _).isInfix
      · exact (ih hrest).trans ((List.suffix_cons _ _).trans (List.suffix_append _ _)).isInfix

/-- A segment occurs in its text. -/
theorem infix_of_mem_segments {s part : String} (h : part ∈ segments s) :
    part.toList <:+: s.toList := by
  obtain ⟨piece, hpiece, rfl⟩ := List.mem_map.1 h
  have hinfix : piece <:+: joinBy '.' (cutAt '.' s.toList) := infix_joinBy hpiece
  rw [joinBy_cutAt] at hinfix
  simpa using hinfix

end Text

/-! ## Texts -/

/-- The mark of subqueries occurs in the text. -/
def mentionsMark (text : String) : Prop := subquerySegment.toList <:+: text.toList

instance (text : String) : Decidable (mentionsMark text) :=
  inferInstanceAs (Decidable (subquerySegment.toList <:+: text.toList))

theorem mentionsMark_subquerySegment : mentionsMark subquerySegment := List.infix_rfl

/-- Parts with dots between them mention the mark only if one of them does. -/
theorem exists_mentionsMark_of_dotted {parts : List String}
    (h : mentionsMark (Text.dotted parts)) : ∃ part ∈ parts, mentionsMark part := by
  have hjoin : subquerySegment.toList <:+: Text.joinBy '.' (parts.map String.toList) := by
    simpa [mentionsMark, Text.dotted] using h
  obtain ⟨piece, hpiece, hinfix⟩ :=
    Text.exists_infix_of_infix_joinBy (by decide) (by decide) hjoin
  obtain ⟨part, hpart, rfl⟩ := List.mem_map.1 hpiece
  exact ⟨part, hpart, hinfix⟩

/-- A text mentions the mark if a segment does. -/
theorem mentionsMark_of_mem_segments {s part : String} (hpart : part ∈ Text.segments s)
    (h : mentionsMark part) : mentionsMark s :=
  List.IsInfix.trans h (Text.infix_of_mem_segments hpart)

/-- A text mentions the mark if what stands before its last dot does. -/
theorem mentionsMark_of_namespaceOf {s : String} (h : mentionsMark (Text.namespaceOf s)) :
    mentionsMark s := by
  obtain ⟨part, hpart, hmark⟩ := exists_mentionsMark_of_dotted h
  exact mentionsMark_of_mem_segments (List.mem_of_mem_dropLast hpart) hmark

/-- A text mentions the mark if its last segment does. -/
theorem mentionsMark_of_lastSegment {s : String} (h : mentionsMark (Text.lastSegment s)) :
    mentionsMark s := by
  rw [Text.lastSegment, List.getLastD_eq_getLast?,
    List.getLast?_eq_some_getLast (Text.segments_ne_nil s)] at h
  exact mentionsMark_of_mem_segments (List.getLast_mem (Text.segments_ne_nil s)) h

/-- Taking backticks off both ends of a text brings no mark in. -/
theorem mentionsMark_of_dropBackticks {s : String} (h : mentionsMark (dropBackticks s)) :
    mentionsMark s := by
  have hlast : ∀ cs : List Char, dropLastBacktick cs <:+: cs := by
    intro cs
    unfold dropLastBacktick
    split
    · exact (List.dropLast_prefix cs).isInfix
    · exact List.infix_rfl
  have hinfix : (dropBackticks s).toList <:+: s.toList := by
    unfold dropBackticks
    rw [String.toList_ofList]
    split
    · next rest hrest =>
      rw [hrest]
      exact (hlast rest).trans (List.suffix_cons _ _).isInfix
    · exact hlast _
  exact List.IsInfix.trans h hinfix

/-! ## Columns -/

namespace Attribute

/-- The segments of the qualifier and the name, if there is one. -/
def texts (a : Attribute) : List String := a.qualifier ++ a.name.toList

/-- Neither the qualifier nor the name mentions the mark of subqueries. -/
def Unmarked (a : Attribute) : Prop := ∀ text ∈ a.texts, ¬ mentionsMark text

instance (a : Attribute) : Decidable a.Unmarked :=
  inferInstanceAs (Decidable (∀ text ∈ a.texts, ¬ mentionsMark text))

variable {a : Attribute}

/-- A column is unmarked if and only if its qualifier and its name are. -/
theorem unmarked_iff : a.Unmarked ↔
    (∀ segment ∈ a.qualifier, ¬ mentionsMark segment) ∧
      ∀ name, a.name = some name → ¬ mentionsMark name := by
  simp only [Unmarked, texts, List.mem_append, Option.mem_toList, or_imp, forall_and]

/-- An unmarked column stays so under an unmarked qualifier. -/
theorem Unmarked.withQualifier (h : a.Unmarked) {qualifier : List String}
    (hqualifier : ∀ segment ∈ qualifier, ¬ mentionsMark segment) :
    (a.withQualifier qualifier).Unmarked :=
  unmarked_iff.2 ⟨hqualifier, (unmarked_iff.1 h).2⟩

/-- An unmarked column stays so under an unmarked name. -/
theorem Unmarked.withName (h : a.Unmarked) {name : Label}
    (hname : ∀ text, name = some text → ¬ mentionsMark text) : (a.withName name).Unmarked :=
  unmarked_iff.2 ⟨(unmarked_iff.1 h).1, hname⟩

/-- An unmarked column stays so without the last segment of its qualifier. -/
theorem Unmarked.dropLastSegment (h : a.Unmarked) : a.dropLastSegment.Unmarked :=
  h.withQualifier fun segment hsegment =>
    (unmarked_iff.1 h).1 segment (List.mem_of_mem_dropLast hsegment)

/-- A name that is cut to its last segment, without backticks, does not mention the mark unless the
whole name does. -/
theorem Unmarked.cutName (h : a.Unmarked) :
    (a.withName (a.name.map fun name => dropBackticks (Text.lastSegment name))).Unmarked := by
  apply h.withName
  intro text htext hmark
  obtain ⟨name, hname, rfl⟩ := Option.map_eq_some_iff.1 htext
  exact (unmarked_iff.1 h).2 name hname
    (mentionsMark_of_lastSegment (mentionsMark_of_dropBackticks hmark))

/-- The marker of rows is unmarked. -/
theorem unmarked_countMarker (id : Int) : (Attribute.mk id (some countName) []).Unmarked := by
  refine unmarked_iff.2 ⟨fun _ h => absurd h List.not_mem_nil, ?_⟩
  rintro name ⟨⟩
  decide

/-- A column that is marked for a subquery mentions the mark. -/
theorem not_unmarked_markSubquery (a : Attribute) : ¬ a.markSubquery.Unmarked := by
  intro h
  refine (unmarked_iff.1 h).1 subquerySegment ?_ mentionsMark_subquerySegment
  exact List.mem_append_right _ List.mem_cons_self

/-- A column that is marked is one of a subquery. -/
@[simp]
theorem isSubqueryMarked_markSubquery (a : Attribute) : a.markSubquery.isSubqueryMarked = true := by
  have hlower : (Text.lower subquerySegment == subquerySegment) = true := by decide +kernel
  simp [isSubqueryMarked, markSubquery, withQualifier, hlower]

@[simp]
theorem isCountMarker_markSubquery (a : Attribute) :
    a.markSubquery.isCountMarker = a.isCountMarker := rfl

/-- The text of an unmarked column does not mention the mark. -/
theorem Unmarked.qualifiedName (h : a.Unmarked) : ¬ mentionsMark a.qualifiedName := by
  intro hmark
  obtain ⟨text, htext, hmark⟩ := exists_mentionsMark_of_dotted hmark
  exact h text htext hmark

end Attribute

end ColumnTrace
