import ConfigPack.FileTree.Basic
import ConfigPack.FileTree.Name

/-!
# Walking paths

A walk takes the names of a path one after the other from a directory.  Every name but the last
must lead to a directory; links are followed, at most forty of them.  Where the last name leads to
nothing the walk still says in which directory the name would stand.
-/

namespace ConfigPack.FileTree

/-- Where a walk ends. -/
inductive Landing where
  /-- At a place that has a node. -/
  | found (place : Place)
  /-- At a name that a directory does not hold; `slash` when the path ends with a slash. -/
  | missing (directory : Place) (name : String) (slash : Bool)
deriving DecidableEq, Repr

/-- The names of a path; a slash at the end shows as an empty last name. -/
def steps (path : String) : List String :=
  let parts := Path.segments path
  let names := parts.filter (· ≠ "")
  if parts.getLast? = some "" then names ++ [""] else names

/-- The directory in which a path starts. -/
def start (directory : Place) (path : String) : Place :=
  if Path.isAbsolute path then [] else directory

/-- The greatest number of links that one walk follows. -/
def maxLinks : Nat := 40

/-- The greatest number of bytes of a name. -/
def maxName : Nat := 255

/-- The least number of bytes that is too many for a path. -/
def pathLimit : Nat := 4096

/-- Walk names from a directory; `follow` says whether a link at the end is followed, `links` how
many more links may be, and `fuel` bounds the steps. -/
def walkFrom (tree : FileTree) (follow : Bool) :
    (fuel links : Nat) → Place → List String → Except IoError Landing
  | 0, _, _, _ => .error .linkLoop
  | _, _, place, [] => .ok (.found place)
  | fuel + 1, links, place, name :: rest =>
    if name = "" ∨ name = "." then walkFrom tree follow fuel links place rest
    else if name = ".." then walkFrom tree follow fuel links place.dropLast rest
    else if FileName.size name > maxName then .error .nameTooLong
    else
      let next := place ++ [name]
      match tree.node? next with
      | none =>
        if rest.all (· = "") then .ok (.missing place name (!rest.isEmpty)) else .error .notFound
      | some .directory => walkFrom tree follow fuel links next rest
      | some (.file _ _) => if rest.isEmpty then .ok (.found next) else .error .notDirectory
      | some (.link target) =>
        if rest.isEmpty && !follow then .ok (.found next)
        else
          match links with
          | 0 => .error .linkLoop
          | links + 1 =>
            if target.isEmpty then .error .notFound
            else walkFrom tree follow fuel links (start place target) (steps target ++ rest)

/-- Steps enough for any path and forty targets. -/
def walkFuel : Nat := 42 * pathLimit

/-- Walk the names of a path from the working directory. -/
def walkNames (tree : FileTree) (follow : Bool) (path : String) (names : List String) :
    Except IoError Landing :=
  if path.isEmpty then .error .notFound
  else if FileName.pathSize path ≥ pathLimit then .error .nameTooLong
  else walkFrom tree follow walkFuel maxLinks (start tree.workingDirectory path) names

/-- Walk a path; a name with a zero character names nothing. -/
def walk (tree : FileTree) (follow : Bool) (path : String) : Except IoError Landing :=
  if Path.hasNul path then .error .nulInName else walkNames tree follow path (steps path)

/-- The last name of a path as an operation on directory entries sees it. -/
inductive LastStep where
  /-- A name, and whether a slash follows it. -/
  | name (slash : Bool)
  /-- A dot, two dots or the root. -/
  | special
deriving DecidableEq, Repr

/-- The names of a path without the slash at its end, and what the last of them is. -/
def lastStep (path : String) : List String × LastStep :=
  let all := steps path
  let slash := all.getLast? = some ""
  let names := if slash then all.dropLast else all
  match names.getLast? with
  | none => (names, .special)
  | some last => (names, if last = "." ∨ last = ".." then .special else .name slash)

end ConfigPack.FileTree
