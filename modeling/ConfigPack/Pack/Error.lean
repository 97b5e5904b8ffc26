import ConfigPack.Archive.Member
import ConfigPack.Digest.Checksum
import ConfigPack.FileTree.Error
import ConfigPack.Glob.Parser
import ConfigPack.Hook.Abort

/-!
# Errors of packs

Why a pack cannot be built, read or unpacked.
-/

namespace ConfigPack

/-- The words for a flaw of an archive. -/
def Archive.Flaw.message : Archive.Flaw → String
  | malformed => "archive error"
  | unreadable name => s!"archive error: reading {name}"
  | escapes name => s!"archive entry '{name}' escapes the extraction directory"

/-- Why there is no pack. -/
inductive PackError where
  /-- An archive holds no manifest. -/
  | notAPack
  | checksum (mismatch : ChecksumMismatch)
  /-- A source that is not a file cannot be read. -/
  | unreachable (url : String)
  | archive (flaw : Archive.Flaw)
  /-- Fuels are referred to, but there is no directory of fuels. -/
  | missingFuelDirectory (fuels : List String)
  /-- The user put the question aside whether to go on. -/
  | aborted
  | invalidGlob (pattern : String) (fault : Glob.Fault)
  /-- No file was chosen. -/
  | nothingToArchive
  | io (path : String) (error : IoError)
  | hook (abort : Abort)

/-- The words for an error. -/
def PackError.message : PackError → String
  | notAPack => "archive is not a config pack (missing rocket.config.json5)"
  | checksum mismatch => mismatch.message
  | unreachable url => s!"failed to download {url}: no network"
  | .archive flaw => flaw.message
  | missingFuelDirectory fuels =>
    "manifest references fuels (" ++ ", ".intercalate fuels ++ ") but no fuel directory was given"
  | aborted => "unpack aborted"
  | invalidGlob pattern fault => s!"invalid glob pattern '{pattern}': {fault.message}"
  | nothingToArchive => "no files matched the include patterns"
  | io path error => s!"IO error on {path}: {error.message}"
  | hook abort => abort.message

end ConfigPack
