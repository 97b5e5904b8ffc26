import ConfigPack.FileTree.Walk
import ConfigPack.Text.Utf8

/-!
# Operations on files

Reading, writing, creating, renaming and listing, each with the causes for which it is refused.  An
operation that is refused leaves the tree as it was.  New files have mode 644.
-/

namespace ConfigPack.FileTree

/-- The permission bits of a new file. -/
def newFileMode : Nat := 0o644

/-- The place of what a path names, links followed. -/
def locate (tree : FileTree) (path : String) : Except IoError Place := do
  match ← tree.walk true path with
  | .found place => return place
  | .missing _ _ _ => throw .notFound

/-- The place of what the path of an entry names, links followed; an entry that was found in a
directory may have a name that is no text. -/
def locateEntry (tree : FileTree) (path : String) : Except IoError Place := do
  match ← tree.walkNames true path (steps path) with
  | .found place => return place
  | .missing _ _ _ => throw .notFound

/-- What a path names, links followed. -/
def stat (tree : FileTree) (path : String) : Except IoError Node := do
  let place ← tree.locate path
  match tree.node? place with
  | some node => return node
  | none => throw .notFound

/-- Whether a path names a directory. -/
def isDirectory (tree : FileTree) (path : String) : Bool :=
  match tree.stat path with
  | .ok .directory => true
  | _ => false

/-- Whether the path of an entry names a directory. -/
def entryIsDirectory (tree : FileTree) (path : String) : Bool :=
  match tree.locateEntry path with
  | .ok place =>
    match tree.node? place with
    | some .directory => true
    | _ => false
  | .error _ => false

/-- Whether a path names a file. -/
def isFile (tree : FileTree) (path : String) : Bool :=
  match tree.stat path with
  | .ok (.file _ _) => true
  | _ => false

/-- The permission bits of the file a path names. -/
def mode? (tree : FileTree) (path : String) : Option Nat :=
  match tree.stat path with
  | .ok (.file _ mode) => some mode
  | _ => none

/-- The bytes of the file at a place. -/
def readAt (tree : FileTree) (place : Place) : Except IoError ByteArray :=
  match tree.node? place with
  | some (.file data _) => .ok data
  | some _ => .error .isDirectory
  | none => .error .notFound

/-- The text of the file at a place. -/
def readTextAt (tree : FileTree) (place : Place) : Except IoError String := do
  match Utf8.decode (← tree.readAt place) with
  | .ok text => return text
  | .error _ => throw .notText

/-- The bytes of the file a path names. -/
def read (tree : FileTree) (path : String) : Except IoError ByteArray := do
  tree.readAt (← tree.locate path)

/-- The text of the file a path names. -/
def readText (tree : FileTree) (path : String) : Except IoError String := do
  tree.readTextAt (← tree.locate path)

/-- The names in the directory that the path of an entry names. -/
def listEntry (tree : FileTree) (path : String) : Except IoError (List String) := do
  let place ← tree.locateEntry path
  match tree.node? place with
  | some .directory => return tree.namesIn place
  | _ => throw .notDirectory

/-- Write a file in place, a new one where there is none. -/
def write (tree : FileTree) (path : String) (data : ByteArray) : Except IoError FileTree := do
  if Path.hasNul path then throw .nulInName
  let (names, last) := lastStep path
  let landing ← tree.walkNames true path names
  if last = .name true then throw .isDirectory
  match landing with
  | .found place =>
    match tree.node? place with
    | some (.file _ mode) => return tree.set place (.file data mode)
    | _ => throw .isDirectory
  | .missing directory name slash =>
    if slash then throw .isDirectory
    else return tree.set (directory ++ [name]) (.file data newFileMode)

/-- Create one directory. -/
def makeDirectory (tree : FileTree) (path : String) : Except IoError FileTree := do
  if Path.hasNul path then throw .nulInName
  let (names, last) := lastStep path
  match ← tree.walkNames false path names with
  | .found _ => throw .exists
  | .missing directory name _ =>
    match last with
    | .special => throw .exists
    | .name _ => return tree.set (directory ++ [name]) .directory

/-- A path, its parent, the parent of that and so on, up to the empty path or the root. -/
def ancestors (fuel : Nat) (path : String) : List String :=
  match fuel with
  | 0 => []
  | fuel + 1 =>
    path :: match Path.parent? path with
      | some above => ancestors fuel above
      | none => []

/-- The ancestors that have to be created, nearest first, until one exists or was created. -/
def missingAncestors (tree : FileTree) :
    List String → List String → Except IoError (FileTree × List String)
  | [], missing => .ok (tree, missing)
  | path :: above, missing =>
    if path = "" then .ok (tree, missing)
    else
      match tree.makeDirectory path with
      | .ok tree => .ok (tree, missing)
      | .error .notFound => missingAncestors tree above (path :: missing)
      | .error .exists => if tree.isDirectory path then .ok (tree, missing) else .error .exists
      | .error e => .error e

/-- Create directories one after the other; one that is there already is passed over. -/
def makeEach (tree : FileTree) : List String → FileTree × Except IoError Unit
  | [] => (tree, .ok ())
  | path :: rest =>
    match tree.makeDirectory path with
    | .ok tree => makeEach tree rest
    | .error e =>
      if e = .exists && tree.isDirectory path then makeEach tree rest else (tree, .error e)

/-- Create a directory and what is missing above it.  The tree is returned also when a later
directory is refused, since earlier ones then stand. -/
def makeDirectories (tree : FileTree) (path : String) : FileTree × Except IoError Unit :=
  match tree.missingAncestors (ancestors (path.utf8ByteSize + 1) path) [] with
  | .error e => (tree, .error e)
  | .ok (tree, missing) => tree.makeEach missing

/-- Take what a path names away, with everything below it; a link itself, not its target. -/
def remove (tree : FileTree) (path : String) : Except IoError FileTree := do
  match ← tree.walk false path with
  | .found place => return tree.prune place
  | .missing _ _ _ => throw .notFound

end ConfigPack.FileTree
