import ConfigPack.Expr
import ConfigPack.FileTree.Error
import ConfigPack.Hook.Abort
import ConfigPack.Manifest.Fault

/-!
# Errors of configuration

Why a manifest cannot be loaded, or its parameters, sections and fuels cannot be resolved.
-/

namespace ConfigPack

/-- Why a configuration has no result. -/
inductive ConfigError where
  | invalid (fault : Manifest.Fault)
  /-- A directory holds no manifest. -/
  | manifestNotFound (directory : String)
  /-- A text is not a document of its format; only some formats tell more. -/
  | parse (path format : String) (detail : Option String)
  /-- An expression names a parameter that has no value yet. -/
  | unresolvedReference (owner reference : String)
  | mismatch (mismatch : Mismatch)
  | cancelled (parameter : String)
  | promptFailed (parameter reason : String)
  | fuelNotFound (name reason : String)
  | io (path : String) (error : IoError)
  | hook (abort : Abort)
deriving DecidableEq, Repr

/-- The words for an error. -/
def ConfigError.message : ConfigError → String
  | invalid fault => "invalid manifest at \x60" ++ fault.place ++ "\x60: " ++ fault.flaw.message
  | manifestNotFound directory => s!"no rocket.config manifest found in {directory}"
  | parse path format detail =>
    s!"failed to parse {format} manifest {path}" ++
      match detail with
      | some text => ": " ++ text
      | none => ""
  | unresolvedReference owner reference =>
    s!"'{owner}' references parameter '{reference}' before it is resolved"
  | .mismatch m => m.message
  | cancelled parameter => s!"prompt for parameter '{parameter}' was cancelled"
  | promptFailed parameter reason => s!"prompt for parameter '{parameter}' failed: {reason}"
  | fuelNotFound name reason => s!"fuel '{name}' not found: {reason}"
  | io path error => s!"IO error reading {path}: {error.message}"
  | hook abort => abort.message

end ConfigPack
