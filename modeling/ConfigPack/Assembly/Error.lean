import ConfigPack.Output.Error

/-!
# Errors of assembly

Why the files of a frame and the built files cannot all be written.
-/

namespace ConfigPack

/-- Why an assembly stopped. -/
inductive AssemblyError where
  /-- The substitution of tokens in a file came to no end. -/
  | notConverged (path : String) (passes : Nat)
  | io (path : String) (error : IoError)
  /-- A path leads out of the output directory. -/
  | escapes (path : String)
  | output (error : OutputError)
  | hook (abort : Abort)

/-- The words for an error. -/
def AssemblyError.message : AssemblyError → String
  | notConverged path passes =>
    s!"variable substitution in '{path}' did not converge after {passes} passes"
  | io path error => s!"IO error reading frame {path}: {error.message}"
  | escapes path => s!"output path '{path}' escapes the output directory"
  | output error => error.message
  | hook abort => abort.message

end ConfigPack
