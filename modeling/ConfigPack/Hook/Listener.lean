import ConfigPack.Assembly.Basic
import ConfigPack.Environment.Basic
import ConfigPack.Hook.Abort
import ConfigPack.Manifest.Basic
import ConfigPack.Output.Basic

/-!
# Listeners

A listener is called at certain points of an operation.  It sees what is decided there, may change
it, and may stop the operation.  The listeners of a bus are called one after the other, each with
what the one before it left; the operation goes on with what the last one left.
-/

namespace ConfigPack

/-- What a listener does: it changes a state of its own, and may stop the operation. -/
abbrev Hearing (σ : Type) := ExceptT Abort (StateM σ)

/-- A listener: for each point, what it makes of the decision there. -/
structure Listener (σ : Type) where
  /-- Before a parameter is resolved, with the parameters resolved so far. -/
  onParameter : Parameter → ParameterEnv → Hearing σ ParameterEnv := fun _ env => pure env
  /-- Before a variable is resolved, with the variables resolved so far. -/
  onVariable : String → Rule String → Dict String → Hearing σ (Dict String) :=
    fun _ _ resolved => pure resolved
  /-- Before it is decided whether a path is left out, with the decisions so far. -/
  onExclude : String → Rule Bool → Dict Bool → Hearing σ (Dict Bool) :=
    fun _ _ resolved => pure resolved
  /-- Before a file is built, with the files built so far. -/
  onBuilder : String → BuilderEntry → Dict BuiltFile → Hearing σ (Dict BuiltFile) :=
    fun _ _ resolved => pure resolved
  /-- Before a candidate is considered. -/
  onCandidate : Candidate → Hearing σ Candidate := pure
  /-- Before a file is written. -/
  onWrite : Draft → Hearing σ Draft := pure
  /-- Before a file is merged with what is there. -/
  onMerge : Draft → Hearing σ Draft := pure
  /-- After a pack is opened, with its entries. -/
  onExtract : Dict ByteArray → Hearing σ (Dict ByteArray) := pure

/-- The listeners of an operation, in the order in which they are called. -/
abbrev Bus (σ : Type) := List (Listener σ)

namespace Bus

variable {σ α : Type}

/-- Let every listener hear a decision. -/
def emit (hear : Listener σ → α → Hearing σ α) (bus : Bus σ) (decision : α) : Hearing σ α :=
  bus.foldlM (fun decision listener => hear listener decision) decision

/-- Let every listener hear that a parameter is going to be resolved. -/
def emitParameter (bus : Bus σ) (parameter : Parameter) (env : ParameterEnv) :
    Hearing σ ParameterEnv :=
  bus.emit (fun l => l.onParameter parameter) env

/-- Let every listener hear that a variable is going to be resolved. -/
def emitVariable (bus : Bus σ) (name : String) (rule : Rule String) (resolved : Dict String) :
    Hearing σ (Dict String) :=
  bus.emit (fun l => l.onVariable name rule) resolved

/-- Let every listener hear that it is going to be decided whether a path is left out. -/
def emitExclude (bus : Bus σ) (path : String) (rule : Rule Bool) (resolved : Dict Bool) :
    Hearing σ (Dict Bool) :=
  bus.emit (fun l => l.onExclude path rule) resolved

/-- Let every listener hear that a file is going to be built. -/
def emitBuilder (bus : Bus σ) (key : String) (entry : BuilderEntry) (resolved : Dict BuiltFile) :
    Hearing σ (Dict BuiltFile) :=
  bus.emit (fun l => l.onBuilder key entry) resolved

/-- Let every listener hear of a candidate. -/
def emitCandidate (bus : Bus σ) (candidate : Candidate) : Hearing σ Candidate :=
  bus.emit Listener.onCandidate candidate

/-- Let every listener hear that a file is going to be written. -/
def emitWrite (bus : Bus σ) (draft : Draft) : Hearing σ Draft := bus.emit Listener.onWrite draft

/-- Let every listener hear that a file is going to be merged. -/
def emitMerge (bus : Bus σ) (draft : Draft) : Hearing σ Draft := bus.emit Listener.onMerge draft

/-- Let every listener hear of the entries of a pack. -/
def emitExtract (bus : Bus σ) (entries : Dict ByteArray) : Hearing σ (Dict ByteArray) :=
  bus.emit Listener.onExtract entries

end Bus

end ConfigPack
