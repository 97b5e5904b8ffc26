import ConfigPack.Dict

/-!
# Environments

An environment is all that a manifest means for the files to be written: the values of the
variables, the paths that are left out, and the files that are built.
-/

namespace ConfigPack

/-- A file with its path below the output directory. -/
structure BuiltFile where
  path : String
  content : String
deriving DecidableEq, Repr

/-- What a manifest means for the files to be written. -/
structure Environment where
  tokens : Dict String
  /-- Whether each path is left out. -/
  excludes : Dict Bool
  /-- The built files by key. -/
  builders : Dict BuiltFile
deriving DecidableEq

/-- Whether a path is left out. -/
def Environment.isExcluded (environment : Environment) (path : String) : Bool :=
  (environment.excludes.find? path).getD false

end ConfigPack
