import ConfigPack.ConfigError
import ConfigPack.Environment.Basic
import ConfigPack.FileTree.Canonical
import ConfigPack.Fuel.Basic

/-!
# Supplying fuels

Values that stand for fuels are replaced by the content of the fuels, which is taken as it is.
Fuels come from the files of a directory or from a dictionary.
-/

namespace ConfigPack.Fuel

/-- Where the content of fuels comes from. -/
abbrev Source := String → Except ConfigError String

/-- The fuels of a dictionary. -/
def ofDict (fuels : Dict String) : Source := fun name =>
  match fuels.find? name with
  | some content => .ok content
  | none => .error (.fuelNotFound name "not in the fuel map")

/-- The fuels in the files below a directory; links must not lead out of it. -/
def ofDirectory (tree : FileTree) (root : String) : Source := fun name =>
  let fail {α : Type} (reason : String) : Except ConfigError α := .error (.fuelNotFound name reason)
  if name.isEmpty || !Path.staysInside name then
    fail "name must be a relative path inside the fuel directory"
  else
    match tree.canonical (Path.join root name), tree.canonical root with
    | .error e, _ => fail e.message
    | _, .error e => fail e.message
    | .ok place, .ok top =>
      if !top.isPrefixOf place then fail "resolves outside the fuel directory"
      else
        match tree.readTextFrom place with
        | .ok text => .ok text
        | .error e => fail e.message

/-- The text that a value stands for. -/
def refuel (source : Source) (value : String) : Except ConfigError String :=
  match name? value with
  | some name => source name
  | none => .ok value

/-- The values with the fuels that they stand for. -/
def supply (source : Source) (values : Dict String) : Except ConfigError (Dict String) :=
  values.mapM fun _ value => refuel source value

/-- The built files with the fuels that their contents stand for. -/
def supplyBuilders (source : Source) (builders : Dict BuiltFile) :
    Except ConfigError (Dict BuiltFile) :=
  builders.mapM fun _ file => do return { file with content := ← refuel source file.content }

end ConfigPack.Fuel
