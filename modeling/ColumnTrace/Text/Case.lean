import ColumnTrace.Text.CaseTable

/-!
# Letter case

`lower` and `upper` are the full Unicode case maps: one character may become several (`ß` in upper
case), and a capital sigma at the end of a word becomes the final small sigma. `titled` gives each
word one capital.
-/

set_option autoImplicit false

namespace ColumnTrace.Text

/-- Letters of a script with two cases, and signs made of them. -/
def isCased (c : Char) : Bool :=
  if c.toNat < 128 then c.isAlpha else CaseTable.cased.has c

/-- Characters that do not end a word for the rule of the final sigma. -/
def isCaseIgnorable (c : Char) : Bool :=
  CaseTable.ignorable.has c

/-- A word ends here: a cased letter stands before, and none follows. `before` is read outwards,
from the nearest character on. -/
def endsWord (before after : List Char) : Bool :=
  (before.dropWhile isCaseIgnorable).head?.any isCased &&
    !(after.dropWhile isCaseIgnorable).head?.any isCased

/-- The lower case form of one character, with the characters around it. -/
def lowerChar (before : List Char) (c : Char) (after : List Char) : List Char :=
  if c.toNat < 128 then [c.toLower]
  else if c.toNat == 0x3a3 then [if endsWord before after then 'ς' else 'σ']
  else if c.toNat == 0x130 then ['i', '\u0307']
  else [shifted CaseTable.toLower c]

/-- Lower case of the characters, where `before` has been read already, nearest first. -/
def lowerAfter (before : List Char) : List Char → List Char
  | [] => []
  | c :: rest => lowerChar before c rest ++ lowerAfter (c :: before) rest

/-- The text in lower case. -/
def lower (s : String) : String :=
  String.ofList (lowerAfter [] s.toList)

/-- The upper case form of one character. -/
def upperChar (c : Char) : List Char :=
  if c.toNat < 128 then [c.toUpper]
  else match CaseTable.toLongUpper.lookup c.toNat with
    | some codes => codes.map Char.ofNat
    | none => [shifted CaseTable.toUpper c]

/-- The text in upper case. -/
def upper (s : String) : String :=
  String.ofList (s.toList.flatMap upperChar)

/-- The form of an upper case character at the start of a word: the four letters that stand for two
have a form of their own. -/
def initialChar (c : Char) : Char :=
  match c with
  | 'Ǆ' => 'ǅ'
  | 'Ǉ' => 'ǈ'
  | 'Ǌ' => 'ǋ'
  | 'Ǳ' => 'ǲ'
  | _ => c

/-- Title case of upper case characters, where `before` has been read already, nearest first: a
letter after a letter is made small. -/
def titledAfter (before : List Char) : List Char → List Char
  | [] => []
  | c :: rest =>
    (if before.head?.any isCased then lowerChar before c rest else [initialChar c]) ++
      titledAfter (c :: before) rest

/-- An upper case text with one capital a word. -/
def titled (s : String) : String :=
  String.ofList (titledAfter [] s.toList)

end ColumnTrace.Text
