import ConfigPack.Assembly.Listing
import ConfigPack.Fuel.Supply
import ConfigPack.Json.Printer
import ConfigPack.Pack.Source

/-!
# Bundling

A bundle is the archive of a manifest, of the files of its frame, and of the fuels that it refers
to. The manifest is checked first and stored as JSON, whatever its format was.
-/

namespace ConfigPack

/-- What is bundled and where the archive goes. -/
structure BundleSettings where
  /-- The directory of the frame. -/
  frame : Option String
  /-- The manifest; without one it is looked for beside the frame. -/
  config : Option String
  /-- The directory of the fuels. -/
  fuels : Option String
  /-- The directory of the archive. -/
  output : String
  /-- The name of the archive without its extension. -/
  name : String
  /-- Build the archive but do not write it. -/
  dryRun : Bool
deriving DecidableEq, Repr

/-- A bundle that was built. -/
structure Bundled where
  path : String
  checksum : String
  /-- The number of entries. -/
  entries : Nat
  fuels : List String
deriving DecidableEq, Repr

namespace Pack

variable {σ : Type}

/-- The path of the manifest that is bundled. -/
def manifestPath (tree : FileTree) (settings : BundleSettings) : Except ConfigError String :=
  match settings.config with
  | some path => .ok path
  | none =>
    Manifest.find tree (match settings.frame with
      | some frame => Path.parentDirectory frame
      | none => ".")

/-- The entry of a manifest. -/
def manifestContent (document : Json) : ByteArray := (document.indented ++ "\n").toUTF8

/-- The entries with those of the files of a frame. -/
def addFrame (tree : FileTree) (frame : String) (entries : Dict ByteArray) :
    Except Failure (Dict ByteArray) := do
  let files ← (Assembly.listFiles tree frame).mapError .assembly
  files.foldlM (fun entries file => do
    let path := Path.join frame file
    let data ← (tree.read path).mapError (.pack ∘ .io path)
    return entries.insert (frameDirectory ++ "/" ++ file) data) entries

/-- The entries with those of the fuels. -/
def addFuels (tree : FileTree) (directory : Option String) (fuels : List String)
    (entries : Dict ByteArray) : Except Failure (Dict ByteArray) := do
  if fuels.isEmpty then return entries
  match directory with
  | none => throw (.pack (.missingFuelDirectory fuels))
  | some root =>
    fuels.foldlM (fun entries name => do
      let content ← (Fuel.ofDirectory tree root name).mapError .config
      return entries.insert (fuelDirectory ++ "/" ++ name) content.toUTF8) entries

/-- The entries of a bundle. -/
def bundleEntries (tree : FileTree) (settings : BundleSettings) (document : Json) :
    Except Failure (Dict ByteArray) := do
  let entries := Dict.empty.insert manifestName (manifestContent document)
  let entries ← match settings.frame with
    | some frame => addFrame tree frame entries
    | none => pure entries
  addFuels tree settings.fuels (Fuel.referenced document) entries

/-- Write an archive into a directory, which is created when it is missing, and log it as done. -/
def writeArchive (directory path : String) (archive : ByteArray) (dryRun : Bool) (verb : String) :
    Work σ PackError Unit := do
  if dryRun then
    Work.log .dryRun s!"would write {path} ({archive.size} bytes)"
  else
    if !directory.isEmpty then
      Work.changePartly (.io directory) fun tree => tree.makeDirectories directory
    Work.change (.io path) fun tree => tree.write path archive
    Work.log .info s!"{verb} {path} (sha256 {checksum .base64url archive})"

/-- Build a bundle and write it. -/
def bundle (settings : BundleSettings) : Work σ Failure Bundled := do
  let config ← Work.look .config fun tree => manifestPath tree settings
  Work.log .info s!"manifest: {config}"
  let manifest ← Work.look .config fun tree => Manifest.load tree config
  let entries ← Work.look id fun tree => bundleEntries tree settings manifest.document
  let fuels := Fuel.referenced manifest.document
  Work.log .debug s!"{entries.size} archive entries, {fuels.length} fuels"
  let archive := Archive.ofEntries entries
  let path := Path.join settings.output (settings.name ++ ".zip")
  Work.within .pack (writeArchive settings.output path archive settings.dryRun "bundled")
  return ⟨path, checksum .base64url archive, entries.size, fuels⟩

end Pack

end ConfigPack
