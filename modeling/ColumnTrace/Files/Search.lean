import ColumnTrace.Files.Pattern
import ColumnTrace.Files.Tree

/-!
# Searching for scripts

`FileTree.scripts` finds the SQL scripts in a folder and in the folders below it that are not
hidden. The folder may be given by patterns: names with special characters stand for the
directories that they match, and two asterisks for a directory with all visible directories below
it. A path is found in the words in which it was sought.
-/

set_option autoImplicit false

namespace ColumnTrace

/-- A path and a name below it. -/
def joinPath (path name : String) : String :=
  if path = "" || path.endsWith "/" then path ++ name else path ++ "/" ++ name

/-- The path without slashes at its end. -/
def withoutLastSlashes (path : String) : String :=
  String.ofList (path.toList.reverse.dropWhile (· == '/')).reverse

/-- A place where a search begins, and the names and patterns from there on. -/
structure FolderPattern where
  start : String
  names : List String

namespace FolderPattern

/-- The search that the text of a folder asks for: what stands before the first pattern is taken by
the letter. -/
def ofText (folder : String) : FolderPattern :=
  let (plain, names) := (pathNames folder).span (!isPattern ·)
  ⟨withoutLastSlashes (Path.text plain), names.filter (· != "")⟩

end FolderPattern

/-- A search in the folder can begin. -/
def canSearch (folder : String) : Bool := canBePath (FolderPattern.ofText folder).start

/-- The name that stands for a directory and all visible directories below it. -/
def allBelow : String := "**"

namespace FileTree

/-- The directory that a path leads to; the empty text is the working directory. -/
def directoryAt? (tree : FileTree) (path : String) : Option Path :=
  if path = "" then some []
  else match tree.place path with
    | .directory path => some path
    | _ => none

/-- The paths from a directory to the visible directories below it. -/
def visibleBelow (tree : FileTree) (directory : Path) : List Path :=
  (tree.directories.filter fun path => directory.isPrefixOf path && path ≠ directory).filterMap
    fun path =>
      let below := path.drop directory.length
      if below.any isHidden then none else some below

/-- What a name or a pattern stands for in a directory; a pattern may be held to directories. -/
def matching (tree : FileTree) (directoriesOnly : Bool) (path name : String) : List String :=
  let inside := tree.directoryAt? path
  if name = allBelow then
    joinPath path "" :: (inside.toList.flatMap tree.visibleBelow).map fun below =>
      joinPath path below.text
  else if isPattern name then
    inside.toList.flatMap fun directory =>
      ((tree.names directory).filter fun found =>
        matchesName name found && (!directoriesOnly || tree.isDirectory (directory ++ [found]))).map
          (joinPath path)
  else if tree.isThere (joinPath path name) then [joinPath path name]
  else []

/-- What names and patterns lead to from a path on. -/
def matchingAll (tree : FileTree) (paths : List String) (names : List String) : List String :=
  names.foldl (fun paths name => paths.flatMap (tree.matching true · name)) paths

/-- The scripts in a folder, in order of their paths. -/
def scripts (tree : FileTree) (folder : String) : List String :=
  if folder.startsWith "/" then []
  else
    let pattern := FolderPattern.ofText folder
    let folders := tree.matchingAll [pattern.start] (pattern.names ++ [allBelow])
    (folders.flatMap (tree.matching false · "*.sql")).mergeSort fun a b => !(b < a)

end FileTree

end ColumnTrace
