import ConfigPack.Document
import ConfigPack.FileTree.Operations
import ConfigPack.Manifest.Grammar
import ConfigPack.Manifest.Warning
import ConfigPack.World

/-!
# Loading manifests

A manifest is a file; in a directory it is the first of the known names that a file has.
-/

namespace ConfigPack.Manifest

/-- The names of manifests in the order in which they are looked for. -/
def fileNames : List String :=
  ["rocket.config.json5", "rocket.config.json", "rocket.config.yaml", "rocket.config.yml",
    "rocket.config.toml"]

/-- The path of the manifest in a directory. -/
def find (tree : FileTree) (directory : String) : Except ConfigError String :=
  match (fileNames.map (Path.join directory)).find? tree.isFile with
  | some path => .ok path
  | none => .error (.manifestNotFound directory)

/-- The document in a file. -/
def loadDocument (tree : FileTree) (path : String) : Except ConfigError Json := do
  Document.parse path (← (tree.readText path).mapError (.io path))

/-- The manifest in a text that is named by a path. -/
def parse (path text : String) : Except ConfigError Manifest := do
  (ofJson (← Document.parse path text)).mapError .invalid

/-- The manifest in a file. -/
def load (tree : FileTree) (path : String) : Except ConfigError Manifest := do
  (ofJson (← loadDocument tree path)).mapError .invalid

/-- Log the warnings about a manifest. -/
def logWarnings {σ ε : Type} (manifest : Manifest) : Work σ ε Unit :=
  manifest.warnings.forM fun w => Work.log .warn s!"manifest {w.place}: {w.doubt.message}"

end ConfigPack.Manifest
