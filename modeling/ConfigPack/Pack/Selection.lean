import ConfigPack.Glob.Parser
import ConfigPack.Glob.Shape
import ConfigPack.Pack.Bundle

/-!
# Selections

Files of a directory are chosen by globs and put into an archive.
-/

namespace ConfigPack

/-- An archive that was built. -/
structure Archived where
  path : String
  checksum : String
  /-- The number of entries. -/
  entries : Nat
deriving DecidableEq, Repr

namespace Pack

variable {σ : Type}

/-- A text without the dots and slashes it begins with. -/
def dropDotSlash : List Char → List Char
  | '.' :: '/' :: rest => dropDotSlash rest
  | text => text

/-- The pattern of a glob: a text without the dots and slashes it begins with. -/
def globPattern (text : String) : String := String.ofList (dropDotSlash text.toList)

/-- The globs of patterns, each with its pattern. -/
def globsOf (patterns : List String) : Except PackError (List (String × List Glob.Token)) :=
  patterns.mapM fun text => do
    let glob ← (Glob.parse (globPattern text)).mapError (.invalidGlob text)
    return (globPattern text, glob)

/-- The globs of patterns; what they were turned into is logged. -/
def readGlobs (patterns : List String) : Work σ Failure (List (String × List Glob.Token)) := do
  let globs ← liftM ((globsOf patterns).mapError Failure.pack)
  (Glob.notes globs).forM fun note => Work.log .glob note
  return globs

/-- Whether a path matches one of some globs. -/
def matchesAny (globs : List (String × List Glob.Token)) (path : String) : Bool :=
  globs.any fun e => Glob.isMatch e.2 path

/-- Choose the files below a directory that match a pattern to include and none to exclude. -/
def selectFiles (root : String) (included excluded : List String) : Work σ Failure (List String) := do
  let included ← readGlobs included
  let excluded ← readGlobs excluded
  let files ← Work.look .assembly fun tree => Assembly.listFiles tree root
  let chosen := files.filter fun file => matchesAny included file && !matchesAny excluded file
  if chosen.isEmpty then throw (.pack .nothingToArchive)
  return chosen

/-- The entries of files. -/
def fileEntries (tree : FileTree) (root : String) (files : List String) :
    Except PackError (Dict ByteArray) :=
  files.foldlM (fun entries file => do
    let path := Path.join root file
    return entries.insert file (← (tree.read path).mapError (.io path))) Dict.empty

/-- Put files into an archive and write it. -/
def archiveFiles (root : String) (files : List String) (output : String) (dryRun : Bool) :
    Work σ PackError Archived := do
  let entries ← Work.look id fun tree => fileEntries tree root files
  let archive := Archive.ofEntries entries
  writeArchive ((Path.parent? output).getD "") output archive dryRun "zipped"
  return ⟨output, checksum .base64url archive, entries.size⟩

end Pack

end ConfigPack
