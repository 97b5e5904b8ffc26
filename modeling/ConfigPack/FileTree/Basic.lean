import ConfigPack.FileTree.Error
import ConfigPack.Path

/-!
# File trees

A file tree is a finite set of places, each the list of names that leads to it from the root, and
what stands at each: a file with its bytes and mode, a link with its target, or a directory.  The
root is always a directory.  Relative paths start at the working directory.
-/

namespace ConfigPack

/-- A place: the names that lead to it from the root, as `FileName` holds them. -/
abbrev Place := List String

/-- What stands at a place. -/
inductive Node where
  /-- A file: its bytes and its permission bits. -/
  | file (data : ByteArray) (mode : Nat)
  /-- A symbolic link to the path it holds. -/
  | link (target : String)
  | directory
deriving Inhabited

/-- The nodes by place and the working directory. -/
structure FileTree where
  nodes : List (Place × Node)
  workingDirectory : Place

namespace FileTree

/-- What stands at a place. -/
def node? (tree : FileTree) (place : Place) : Option Node :=
  if place = [] then some .directory else tree.nodes.lookup place

/-- Put a node at a place into a list of nodes. -/
def setNode (place : Place) (node : Node) : List (Place × Node) → List (Place × Node)
  | [] => [(place, node)]
  | (p, n) :: rest => if p = place then (p, node) :: rest else (p, n) :: setNode place node rest

/-- Put a node at a place. -/
def set (tree : FileTree) (place : Place) (node : Node) : FileTree :=
  { tree with nodes := setNode place node tree.nodes }

/-- Take a place and everything below it away. -/
def prune (tree : FileTree) (place : Place) : FileTree :=
  { tree with nodes := tree.nodes.filter fun e => !place.isPrefixOf e.1 }

/-- The name by which a place stands directly in a directory. -/
def nameIn? (directory place : Place) : Option String :=
  match place.getLast? with
  | some name => if place.dropLast = directory then some name else none
  | none => none

/-- The names that stand directly in a directory, each once. -/
def namesIn (tree : FileTree) (directory : Place) : List String :=
  (tree.nodes.filterMap fun e => nameIn? directory e.1).eraseDups

end FileTree

end ConfigPack
