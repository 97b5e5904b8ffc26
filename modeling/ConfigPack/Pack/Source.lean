import ConfigPack.Archive.Entries
import ConfigPack.Failure
import ConfigPack.Manifest.Load

/-!
# Sources of packs

A pack is an archive with a manifest at its top, files of a frame in one directory and fuels in
another.
-/

namespace ConfigPack.Pack

/-- The name of the manifest in a pack. -/
def manifestName : String := "rocket.config.json5"

/-- The directory of the frame in a pack. -/
def frameDirectory : String := "frame"

/-- The directory of the fuels in a pack. -/
def fuelDirectory : String := "fuel"

/-- Whether a source is named by an address on the network. -/
def isUrl (source : String) : Bool := source.startsWith "https://" || source.startsWith "http://"

/-- The bytes of a source. -/
def readSource (tree : FileTree) (source : String) : Except PackError ByteArray :=
  if isUrl source then .error (.unreachable source)
  else (tree.read source).mapError (.io source)

/-- The manifest of a pack. -/
def manifest (data : ByteArray) : Except Failure Manifest := do
  match ← (Archive.entry? data manifestName).mapError (.pack ∘ .archive) with
  | none => throw (.pack .notAPack)
  | some content => (Manifest.parse manifestName (Utf8.decodeLossy content)).mapError .config

/-- Whether an archive is a pack. -/
def isPack (data : ByteArray) : Bool := (manifest data).toOption.isSome

/-- Whether an archive is a pack with parameters. -/
def hasParameters (data : ByteArray) : Bool :=
  match manifest data with
  | .ok m => m.hasParameters
  | .error _ => false

end ConfigPack.Pack
