import ColumnTrace.OrderedMap
import ColumnTrace.Text.Segments

/-!
# Trees of files

A tree holds texts by their paths, each path as the names from the working directory on; a directory
is there where a file is below it. A path in a text has slashes between its names: empty names and
single dots stay where they are, two dots go up. Of what lies outside the working directory only
directories are known: those above it and the ones that every root has; and the null device, which
is empty and keeps nothing. No path has the character zero in it.
-/

set_option autoImplicit false

namespace ColumnTrace

/-- A path as the names from the working directory on. -/
abbrev Path := List String

/-- The names of a path in a text. -/
def pathNames (path : String) : List String :=
  (Text.cutAt '/' path.toList).map String.ofList

/-- The name stays in the directory where it is. -/
def staysInPlace (name : String) : Bool := name = "" || name = "."

/-- A path as a text. -/
def Path.text (path : Path) : String :=
  String.ofList (Text.joinBy '/' (path.map String.toList))

/-- Files by their paths, and the texts that were written outside the working directory, by their
paths as they were given. -/
structure FileTree where
  files : OrderedMap Path String
  sent : List (String × String)

/-- What a path leads to. -/
inductive Place where
  /-- A file. -/
  | file (path : Path) (text : String)
  /-- A directory. -/
  | directory (path : Path)
  /-- A name that is free in a directory. -/
  | free (path : Path)
  /-- A directory outside the working directory. -/
  | outside
  /-- A name in a directory outside the working directory. -/
  | unseen
  /-- The file that is always empty. -/
  | nullDevice
  /-- Nothing: a name before the last one is not there. -/
  | missing
  /-- Nothing: a name before the last one is no directory, or the text can be no path. -/
  | blocked

/-- The path of the null device. -/
def nullPath : String := "/dev/null"

/-- The names of the directories that every root has. -/
def rootDirectories : List String := ["dev", "tmp"]

/-- The text may be a path. -/
def canBePath (path : String) : Bool := !path.toList.contains '\x00'

namespace FileTree

/-- The tree of files with their paths as texts. -/
def ofList (files : List (String × String)) : FileTree :=
  ⟨.ofList (files.map fun file => ((pathNames file.1).filter (!staysInPlace ·), file.2)), []⟩

/-- The text of a file. -/
def text? (tree : FileTree) (path : Path) : Option String := tree.files.get? path

/-- All directories, each once, the working directory first. -/
def directories (tree : FileTree) : List Path :=
  ([] :: tree.files.keys.flatMap fun path =>
    (List.range path.length).map path.take).eraseDups

/-- The path is that of a directory. -/
def isDirectory (tree : FileTree) (path : Path) : Bool :=
  path.isEmpty || tree.files.keys.any fun file => path.isPrefixOf file && path ≠ file

/-- The names in a directory, each once. -/
def names (tree : FileTree) (directory : Path) : List String :=
  (tree.files.keys.filterMap fun file =>
    if directory.isPrefixOf file then file[directory.length]? else none).eraseDups

/-- What names lead to from a directory outside the working directory on, where the directories of
some names are known to be in it. -/
def walkOutside (known : List String) : List String → Place
  | [] => .outside
  | name :: rest =>
    if staysInPlace name || name = ".." then walkOutside known rest
    else if known.contains name then walkOutside [] rest
    else if rest.isEmpty then .unseen
    else .missing

/-- What names lead to from a directory on. -/
def walk (tree : FileTree) (directory : Path) : List String → Place
  | [] => .directory directory
  | name :: rest =>
    if staysInPlace name then tree.walk directory rest
    else if name = ".." then
      if directory.isEmpty then walkOutside [] rest else tree.walk directory.dropLast rest
    else
      let path := directory ++ [name]
      if tree.isDirectory path then tree.walk path rest
      else match tree.text? path with
        | some text => if rest.isEmpty then .file path text else .blocked
        | none => if rest.isEmpty then .free path else .missing

/-- What a path in a text leads to. The empty text leads nowhere. -/
def place (tree : FileTree) (path : String) : Place :=
  if path.isEmpty then .missing
  else if !canBePath path then .blocked
  else if path = nullPath then .nullDevice
  else if path.startsWith "/" then walkOutside rootDirectories (pathNames path)
  else tree.walk [] (pathNames path)

/-- The path leads to a file or a directory. -/
def isThere (tree : FileTree) (path : String) : Bool :=
  match tree.place path with
  | .file _ _ | .directory _ | .outside | .nullDevice => true
  | .free _ | .unseen | .missing | .blocked => false

/-- The tree with a text at a path, where the path leads to a file or a free name. -/
def write? (tree : FileTree) (path : String) (text : String) : Option FileTree :=
  match tree.place path with
  | .file path _ | .free path => some { tree with files := tree.files.insert path text }
  | .unseen => some { tree with sent := tree.sent ++ [(path, text)] }
  | .nullDevice => some tree
  | .directory _ | .outside | .missing | .blocked => none

/-- The files that are new or have another text than before, with their paths as texts in order. -/
def changes (before after : FileTree) : List (String × String) :=
  ((after.files.entries.filter fun file => before.text? file.1 ≠ some file.2).map fun file =>
    (file.1.text, file.2)).mergeSort fun a b => !(b.1 < a.1)

end FileTree

end ColumnTrace
