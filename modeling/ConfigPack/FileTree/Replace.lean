import ConfigPack.FileTree.Operations

/-!
# Replacing files

The content of a path is replaced as a whole: it is finished in a temporary file in the same
directory, which is then moved to the path.  Each step of this may be refused; the temporary file is
taken away then, so the tree is what it was before.

What neither the program nor the tree decides is a `WriteChance`: the name of the temporary file,
and what the system refuses for reasons of its own.
-/

namespace ConfigPack

/-- The name of a temporary file: six letters or digits behind a word. -/
structure TemporaryName where
  letters : String
  six : letters.length = 6
  plain : letters.toList.all Char.isAlphanum = true
deriving DecidableEq

/-- The text of the name of a temporary file. -/
def TemporaryName.text (name : TemporaryName) : String := ".tmp" ++ name.letters

instance : Inhabited TemporaryName := ⟨"aaaaaa", rfl, rfl⟩

/-- The steps in which a file is replaced. -/
inductive WriteStep where
  /-- The temporary file is created. -/
  | create
  /-- It gets the permission bits of the file that is replaced. -/
  | permissions
  /-- It gets its content. -/
  | content
  /-- The content is handed to the disk. -/
  | sync
  /-- It is moved to its path. -/
  | rename
deriving DecidableEq, Repr

/-- What chance decides when a file is replaced. -/
structure WriteChance where
  /-- The name of the temporary file; of several that are tried, the last. -/
  name : TemporaryName
  /-- The step that the system refuses for a reason of its own. -/
  fault : Option (WriteStep × IoError)
deriving DecidableEq, Inhabited

/-- Refuse a step if the system does. -/
def WriteChance.pass (chance : WriteChance) (step : WriteStep) : Except IoError Unit :=
  match chance.fault with
  | some (refused, e) => if refused = step then .error e else .ok ()
  | none => .ok ()

namespace FileTree

/-- The path of the working directory. -/
def workingPath (tree : FileTree) : String := "/" ++ "/".intercalate tree.workingDirectory

/-- Take one place away. -/
def erase (tree : FileTree) (place : Place) : FileTree :=
  { tree with nodes := tree.nodes.filter fun e => e.1 ≠ place }

/-- The place of a new file in a directory, which is reached by its absolute path. -/
def placeOfNew (tree : FileTree) (directory name : String) : Except IoError Place := do
  let path := Path.join directory name
  if Path.hasNul path then throw .nulInName
  if FileName.pathSize (Path.join tree.workingPath path) ≥ pathLimit then throw .nameTooLong
  let above ← tree.locate directory
  match tree.node? above with
  | some .directory =>
    if (tree.node? (above ++ [name])).isSome then throw .exists else return above ++ [name]
  | _ => throw .notDirectory

/-- The place of a temporary file in a directory.  A name that is taken is passed over for another,
so when the last is taken all are. -/
def placeOfTemporary (tree : FileTree) (chance : WriteChance) (directory : String) :
    Except IoError Place :=
  let name := chance.name.text
  let base := Path.join tree.workingPath directory
  match (do chance.pass .create; tree.placeOfNew directory name) with
  | .ok place => .ok place
  | .error .exists => .error (.atPath base .tooManyTemporaries)
  | .error e => .error (.atPath (Path.join base name) e)

/-- The place of a file that is moved to a path; it takes that of a file or link that stands
there. -/
def moveTarget (tree : FileTree) (path : String) : Except IoError Place := do
  if Path.hasNul path then throw .invalidArgument
  let (names, last) := lastStep path
  let landing ← tree.walkNames false path names
  match last with
  | .special => throw .busy
  | .name true => throw .notDirectory
  | .name false =>
    match landing with
    | .found place =>
      match tree.node? place with
      | some .directory => throw .isDirectory
      | _ => return place
    | .missing directory name _ => return directory ++ [name]

/-- Finish a temporary file that was created, and move it to its path.  Only its own node changes
before it is moved. -/
def finishTemporary (tree : FileTree) (chance : WriteChance) (directory : String)
    (temporary : Place) (mode : Option Nat) (path : String) (data : ByteArray) :
    Except IoError FileTree := do
  let name := Path.join (Path.join tree.workingPath directory) chance.name.text
  (if mode.isSome then chance.pass .permissions else .ok ())
  (chance.pass .content).mapError (.atPath name)
  chance.pass .sync
  chance.pass .rename
  let file := .file data (mode.getD newFileMode)
  let place ← (tree.set temporary file).moveTarget path
  return ((tree.set temporary file).erase temporary).set place file

/-- Replace the content of a path.  A file that is replaced keeps its mode. -/
def replace (tree : FileTree) (chance : WriteChance) (path : String) (data : ByteArray) :
    FileTree × Except IoError Unit :=
  let directory := Path.parentDirectory path
  let mode := tree.mode? path
  match tree.placeOfTemporary chance directory with
  | .error e => (tree, .error e)
  | .ok temporary =>
    let begun := tree.set temporary (.file .empty newFileMode)
    match begun.finishTemporary chance directory temporary mode path data with
    | .ok done => (done, .ok ())
    | .error e => (begun.erase temporary, .error e)

end FileTree

end ConfigPack
