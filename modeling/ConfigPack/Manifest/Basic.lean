import ConfigPack.Expr
import ConfigPack.Json.Basic
import ConfigPack.Question

/-!
# Manifests

A manifest declares parameters, the variables that are put into files, the paths that are left out,
and files that are built from the manifest itself.  Every section keeps the order of the document,
which is kept as well.
-/

namespace ConfigPack

/-- How a parameter gets its value. -/
inductive ParameterRule where
  /-- The user is asked. -/
  | ask (question : Question)
  /-- An expression over the parameters before it. -/
  | compute (node : Expr)
deriving DecidableEq, Repr

/-- A declared parameter. -/
structure Parameter where
  /-- Expressions name the parameter by this text. -/
  id : String
  rule : ParameterRule
deriving DecidableEq, Repr

/-- A value that is given or computed. -/
inductive Rule (α : Type) where
  | literal (value : α)
  | compute (node : Expr)
deriving DecidableEq, Repr

/-- A file that is built from the manifest. -/
structure BuilderEntry where
  /-- The path of the file below the output directory. -/
  path : String
  content : Rule String
deriving DecidableEq, Repr

/-- A manifest. -/
structure Manifest where
  parameters : List Parameter
  /-- The rule of each variable. -/
  tokens : List (String × Rule String)
  /-- Whether each path is left out. -/
  excludes : List (String × Rule Bool)
  /-- The built files by key. -/
  builders : List (String × BuilderEntry)
  /-- The document that was read. -/
  document : Json

namespace Manifest

/-- The ids of the declared parameters. -/
def ids (manifest : Manifest) : List String := manifest.parameters.map Parameter.id

/-- Whether there are parameters. -/
def hasParameters (manifest : Manifest) : Bool := !manifest.parameters.isEmpty

/-- The parameter of an id. -/
def parameter? (manifest : Manifest) (id : String) : Option Parameter :=
  manifest.parameters.find? fun p => p.id == id

end Manifest

end ConfigPack
