/-!
# Patterns for names

In a pattern `*` stands for any text, `?` for any character, and brackets for a character of a
class: characters and ranges, or after an exclamation mark all others. A closing bracket right at
the start of a class belongs to it; a bracket that is never closed stands for itself, and so does
every other character. A name that begins with a dot is hidden: only a pattern that begins with a
dot matches it.
-/

set_option autoImplicit false

namespace ColumnTrace

/-- A place of a pattern: any text, or one character in one of the ranges, or in none of them. -/
inductive NamePiece where
  | anyText
  | oneOf (negated : Bool) (ranges : List (Char × Char))
deriving DecidableEq

namespace NamePiece

/-- Any character. -/
def anyChar : NamePiece := .oneOf true []

/-- One character. -/
def exactly (c : Char) : NamePiece := .oneOf false [(c, c)]

end NamePiece

/-- The character lies in one of the ranges. -/
def inRanges (ranges : List (Char × Char)) (c : Char) : Bool :=
  ranges.any fun range => range.1 ≤ c && c ≤ range.2

/-- The ranges of a class: a hyphen between two characters makes a range of them. -/
def classRanges : List Char → List (Char × Char)
  | low :: '-' :: high :: rest => (low, high) :: classRanges rest
  | c :: rest => (c, c) :: classRanges rest
  | [] => []

/-- A class after its opening bracket, and the number of characters that it takes up with the
closing bracket. -/
def readClass? (cs : List Char) : Option (NamePiece × Nat) :=
  let (negated, body) := match cs with
    | '!' :: body => (true, body)
    | body => (false, body)
  let (first, more) := match body with
    | ']' :: more => ([']'], more)
    | more => ([], more)
  match more.span (· != ']') with
  | (inner, _ :: _) =>
    let members := first ++ inner
    some (.oneOf negated (classRanges members), negated.toNat + members.length + 1)
  | (_, []) => none

/-- The pieces of a pattern, where the next `skip` characters have been read already. -/
def piecesFrom : (skip : Nat) → List Char → List NamePiece
  | _, [] => []
  | skip + 1, _ :: rest => piecesFrom skip rest
  | 0, c :: rest =>
    if c = '*' then .anyText :: piecesFrom 0 rest
    else if c = '?' then .anyChar :: piecesFrom 0 rest
    else if c = '[' then
      match readClass? rest with
      | some (piece, length) => piece :: piecesFrom length rest
      | none => .exactly c :: piecesFrom 0 rest
    else .exactly c :: piecesFrom 0 rest

/-- Some end of the text is accepted. -/
def anyEnd (accepts : List Char → Bool) : List Char → Bool
  | [] => accepts []
  | c :: rest => accepts (c :: rest) || anyEnd accepts rest

/-- The text falls into the pieces. -/
def fits : List NamePiece → List Char → Bool
  | [], cs => cs.isEmpty
  | .anyText :: pieces, cs => anyEnd (fits pieces) cs
  | .oneOf _ _ :: _, [] => false
  | .oneOf negated ranges :: pieces, c :: rest =>
    (inRanges ranges c != negated) && fits pieces rest

/-- The name begins with a dot. -/
def isHidden (name : String) : Bool := name.startsWith "."

/-- The name stands for more than itself. -/
def isPattern (name : String) : Bool :=
  name.toList.any fun c => c == '*' || c == '?' || c == '['

/-- The pattern matches the name. -/
def matchesName (pattern name : String) : Bool :=
  (isHidden pattern || !isHidden name) && fits (piecesFrom 0 pattern.toList) name.toList

end ColumnTrace
