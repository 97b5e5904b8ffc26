import ConfigPack.Command.Assemble
import ConfigPack.Command.Packs
import ConfigPack.CommandLine.Completion

/-!
# Running commands

Most commands tell what they do in the log.  Those that compute a text print it.
-/

namespace ConfigPack.Command

variable {σ : Type}

/-- The version of the program. -/
def version : String := "0.1.0"

/-- The line that names the version. -/
def versionLine : String := s!"config-rocket {version}\n"

/-- The line with the checksum of a file. -/
def hashLine (options : CommandLine.HashOptions) (tree : FileTree) : Except CommandError String := do
  let data ← (tree.read options.file).mapError fun e => ⟨s!"reading {options.file}", [e.message]⟩
  return checksum options.encoding data ++ s!"  {options.file}\n"

/-- Run a command; the result is what it prints. -/
def run (setting : Setting σ) : CommandLine.Command → Work σ CommandError String
  | .unpack options => do unpack setting options; return ""
  | .assemble options => do assemble setting options; return ""
  | .bundle options => do bundle setting options; return ""
  | .hash options => Work.look id (hashLine options)
  | .inspect source => do inspect source; return ""
  | .zip options => do zip setting options; return ""
  | .completions shell => return shell.script
  | .version => return versionLine

end ConfigPack.Command
