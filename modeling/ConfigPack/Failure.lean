import ConfigPack.Assembly.Error
import ConfigPack.ConfigError
import ConfigPack.Pack.Error

/-!
# Failures

Why an operation as a whole failed: in its configuration, in its assembly, at a single file, or at a
pack.
-/

namespace ConfigPack

/-- Why an operation failed. -/
inductive Failure where
  | config (error : ConfigError)
  | assembly (error : AssemblyError)
  | output (error : OutputError)
  | pack (error : PackError)

/-- The words for a failure. -/
def Failure.message : Failure → String
  | config error => error.message
  | assembly error => error.message
  | output error => error.message
  | pack error => error.message

end ConfigPack
