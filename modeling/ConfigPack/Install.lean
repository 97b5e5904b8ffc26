import ConfigPack.Assembly.Run
import ConfigPack.Environment.Resolve
import ConfigPack.Failure
import ConfigPack.Fuel.Supply
import ConfigPack.Manifest.Basic
import ConfigPack.Parameters

/-!
# Installing

To install a manifest is to resolve its parameters, then its sections, to supply the fuels, and to
assemble the files.  Nothing is written before the assembly.
-/

namespace ConfigPack

/-- What an installation did. -/
structure Installed where
  parameters : ParameterEnv
  /-- The environment with its fuels. -/
  environment : Environment
  report : Report

namespace Install

variable {σ : Type}

/-- The environment with the fuels that it asks for. -/
def fueled (source : Fuel.Source) (environment : Environment) : Except ConfigError Environment := do
  let tokens ← Fuel.supply source environment.tokens
  let builders ← Fuel.supplyBuilders source environment.builders
  return ⟨tokens, environment.excludes, builders⟩

/-- The fuels when there is no directory of fuels. -/
def noFuels : Fuel.Source := Fuel.ofDict .empty

/-- The source of fuels in a directory, if there is one. -/
def fuelSource (tree : FileTree) (directory : Option String) : Fuel.Source :=
  match directory with
  | some root => Fuel.ofDirectory tree root
  | none => noFuels

/-- Resolve a manifest; `source` are the fuels as they stand when they are supplied. -/
def resolve (manifest : Manifest) (source : FileTree → Fuel.Source) (prompter : Prompter σ)
    (bus : Bus σ) : Work σ Failure (ParameterEnv × Environment) := do
  Work.log .stage "Resolving parameters"
  let parameters ← Work.talk .config (Parameters.resolve manifest.parameters prompter bus)
  Work.log .info s!"{parameters.size} parameters resolved"
  Work.log .stage "Resolving config"
  let environment ← Work.talk .config (Environment.resolve manifest parameters bus)
  let environment ← Work.look .config fun tree => fueled (source tree) environment
  return (parameters, environment)

/-- Install a manifest with the fuels of a source. -/
def runFrom (manifest : Manifest) (source : FileTree → Fuel.Source) (settings : AssemblySettings)
    (prompter : Prompter σ) (bus : Bus σ) : Work σ Failure Installed := do
  let (parameters, environment) ← resolve manifest source prompter bus
  Work.log .stage "Assembling"
  let report ← Work.within .assembly (Assembly.run environment settings bus)
  Work.log .info s!"{report.files.length} files processed into {settings.output}"
  return ⟨parameters, environment, report⟩

/-- Install a manifest; `fuels` is the directory of fuels. -/
def run (manifest : Manifest) (fuels : Option String) (settings : AssemblySettings)
    (prompter : Prompter σ) (bus : Bus σ) : Work σ Failure Installed :=
  runFrom manifest (fun tree => fuelSource tree fuels) settings prompter bus

end Install

end ConfigPack
