import ConfigPack.FileTree.Operations

/-!
# Canonical paths

The canonical path of what a path names has neither links nor dots.  To find it the names of a path
are taken one after the other, and the system is asked about each place by its absolute path.  So
the path itself may have any length, but no place on its way may be too far down.
-/

namespace ConfigPack.FileTree

/-- The number of bytes of the absolute path of a place below the root. -/
def placeSize (place : Place) : Nat := FileName.slashedSize place

/-- Take names from a directory; `links` says how many more links may be followed, and `fuel` bounds
the steps. -/
def resolveFrom (tree : FileTree) :
    (fuel links : Nat) → Place → List String → Except IoError Place
  | 0, _, _, _ => .error .linkLoop
  | _, _, place, [] => .ok place
  | fuel + 1, links, place, name :: rest =>
    if name = "" ∨ name = "." then resolveFrom tree fuel links place rest
    else if name = ".." then resolveFrom tree fuel links place.dropLast rest
    else
      let next := place ++ [name]
      if placeSize next ≥ pathLimit ∨ FileName.size name > maxName then .error .nameTooLong
      else
        match tree.node? next with
        | none => .error .notFound
        | some .directory => resolveFrom tree fuel links next rest
        | some (.file _ _) => if rest.isEmpty then .ok next else .error .notDirectory
        | some (.link target) =>
          match links with
          | 0 => .error .linkLoop
          | links + 1 =>
            if target.isEmpty then .error .notFound
            else resolveFrom tree fuel links (start place target) (steps target ++ rest)

/-- The place that the canonical path of what a path names leads to. -/
def canonical (tree : FileTree) (path : String) : Except IoError Place :=
  if Path.hasNul path then .error .nulInName
  else if path.isEmpty then .error .notFound
  else
    resolveFrom tree (path.utf8ByteSize + walkFuel) maxLinks (start tree.workingDirectory path)
      (steps path)

/-- The text of the file that the absolute path of a place names. -/
def readTextFrom (tree : FileTree) (place : Place) : Except IoError String :=
  if placeSize place ≥ pathLimit then .error .nameTooLong else tree.readTextAt place

end ConfigPack.FileTree
