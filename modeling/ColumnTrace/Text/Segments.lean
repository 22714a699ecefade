/-!
# Text in segments

A separator cuts a text into pieces: a dot the segments of a qualified name, a slash the names of a
path. `cutAt` cuts, `joinBy` writes the separators again. Main statements: `joinBy` undoes `cutAt`
(`joinBy_cutAt`), and `cutAt` undoes `joinBy` where there is a piece and none holds the separator
(`cutAt_joinBy`); `dotted_segments` and `segments_dotted` say the same of dotted text.
-/

set_option autoImplicit false

namespace ColumnTrace.Text

/-- The pieces between the separators; there is always one. -/
def cutAt (separator : Char) : List Char → List (List Char)
  | [] => [[]]
  | c :: rest =>
    if c = separator then [] :: cutAt separator rest
    else match cutAt separator rest with
      | [] => [[c]]
      | piece :: pieces => (c :: piece) :: pieces

/-- The pieces with separators between them. -/
def joinBy (separator : Char) : List (List Char) → List Char
  | [] => []
  | [piece] => piece
  | piece :: next :: pieces => piece ++ separator :: joinBy separator (next :: pieces)

/-- The segments of a dotted text. -/
def segments (s : String) : List String :=
  (cutAt '.' s.toList).map String.ofList

/-- The dotted text of segments. -/
def dotted (parts : List String) : String :=
  String.ofList (joinBy '.' (parts.map String.toList))

/-- All segments of a dotted text but the last, as a dotted text; empty for a text without dots. -/
def namespaceOf (s : String) : String :=
  dotted (segments s).dropLast

/-- The last segment of a dotted text. -/
def lastSegment (s : String) : String :=
  (segments s).getLastD ""

variable {separator : Char}

/-- There is always one segment. -/
theorem cutAt_ne_nil (separator : Char) (cs : List Char) : cutAt separator cs ≠ [] := by
  induction cs with
  | nil => simp [cutAt]
  | cons c rest ih =>
    simp only [cutAt]
    split
    · simp
    · split <;> simp

/-- Before further pieces a piece is followed by the separator. -/
theorem joinBy_cons_of_ne_nil (separator : Char) (piece : List Char) {pieces : List (List Char)}
    (h : pieces ≠ []) :
    joinBy separator (piece :: pieces) = piece ++ separator :: joinBy separator pieces := by
  cases pieces with
  | nil => exact absurd rfl h
  | cons next pieces => rfl

/-- The first character of the first piece comes first. -/
theorem joinBy_cons_cons (separator c : Char) (piece : List Char) (pieces : List (List Char)) :
    joinBy separator ((c :: piece) :: pieces) = c :: joinBy separator (piece :: pieces) := by
  cases pieces <;> rfl

/-- Cutting at the separators and writing them again gives the text back. -/
theorem joinBy_cutAt (separator : Char) (cs : List Char) :
    joinBy separator (cutAt separator cs) = cs := by
  induction cs with
  | nil => rfl
  | cons c rest ih =>
    simp only [cutAt]
    split
    · next h => rw [joinBy_cons_of_ne_nil _ _ (cutAt_ne_nil separator rest), ih, h]; rfl
    · split
      · next h => exact absurd h (cutAt_ne_nil separator rest)
      · next piece pieces h => rw [joinBy_cons_cons, ← h, ih]

/-- A text without the separator is one segment. -/
theorem cutAt_of_not_mem {piece : List Char} (h : separator ∉ piece) :
    cutAt separator piece = [piece] := by
  induction piece with
  | nil => rfl
  | cons c rest ih =>
    simp only [List.mem_cons, not_or] at h
    simp [cutAt, Ne.symm h.1, ih h.2]

/-- The first segment ends at the first separator. -/
theorem cutAt_append_separator {piece : List Char} (rest : List Char) (h : separator ∉ piece) :
    cutAt separator (piece ++ separator :: rest) = piece :: cutAt separator rest := by
  induction piece with
  | nil => simp [cutAt]
  | cons c piece ih =>
    simp only [List.mem_cons, not_or] at h
    simp [cutAt, Ne.symm h.1, ih h.2]

/-- Writing the separators and cutting at them gives the pieces back, where there is one and none
holds the separator. -/
theorem cutAt_joinBy {pieces : List (List Char)} (hne : pieces ≠ [])
    (h : ∀ piece ∈ pieces, separator ∉ piece) :
    cutAt separator (joinBy separator pieces) = pieces := by
  induction pieces with
  | nil => exact absurd rfl hne
  | cons piece pieces ih =>
    cases pieces with
    | nil => exact cutAt_of_not_mem (h piece List.mem_cons_self)
    | cons next pieces =>
      rw [joinBy_cons_of_ne_nil _ _ (List.cons_ne_nil next pieces),
        cutAt_append_separator _ (h piece List.mem_cons_self),
        ih (List.cons_ne_nil next pieces) fun p hp => h p (List.mem_cons_of_mem piece hp)]

theorem dotted_singleton (s : String) : dotted [s] = s := by
  simp [dotted, joinBy]

theorem segments_of_not_mem {s : String} (h : '.' ∉ s.toList) : segments s = [s] := by
  simp [segments, cutAt_of_not_mem h]

theorem dotted_segments (s : String) : dotted (segments s) = s := by
  simp [dotted, segments, Function.comp_def, joinBy_cutAt]

/-- Parts without dots are the segments of their dotted text. -/
theorem segments_dotted {parts : List String} (hne : parts ≠ [])
    (h : ∀ part ∈ parts, '.' ∉ part.toList) : segments (dotted parts) = parts := by
  have hjoin : cutAt '.' (joinBy '.' (parts.map String.toList)) = parts.map String.toList :=
    cutAt_joinBy (by simpa using hne) (by simpa using h)
  simp [dotted, segments, hjoin, Function.comp_def]

end ColumnTrace.Text
