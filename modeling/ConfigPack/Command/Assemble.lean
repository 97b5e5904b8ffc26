import ConfigPack.Command.Setting
import ConfigPack.Command.Summary
import ConfigPack.Install
import ConfigPack.Manifest.Load

/-!
# Assembling a project

A project is a directory that holds a frame, and mostly a manifest and fuels beside it.
-/

namespace ConfigPack.Command

variable {σ : Type}

/-- The path of the manifest of a project. -/
def projectManifest (options : CommandLine.AssembleOptions) (tree : FileTree) :
    Except ConfigError String :=
  match options.config with
  | some path => .ok path
  | none => Manifest.find tree (Path.parentDirectory options.frame)

/-- The directory of the fuels of a project. -/
def projectFuels (options : CommandLine.AssembleOptions) (tree : FileTree) : Option String :=
  match options.fuels with
  | some path => some path
  | none =>
    let path := Path.join (Path.parentDirectory options.frame) Pack.fuelDirectory
    if tree.isDirectory path then some path else none

/-- What a manifest holds, in numbers. -/
def manifestSize (manifest : Manifest) : String :=
  s!"{manifest.parameters.length} parameters, {manifest.tokens.length} variables, " ++
    s!"{manifest.excludes.length} excludes, {manifest.builders.length} builder files"

/-- Load the manifest of a project, and tell about it. -/
def loadProject (options : CommandLine.AssembleOptions) : Work σ CommandError Manifest := do
  let path ← Work.look (.plain ∘ .config) (projectManifest options)
  let manifest ← Work.look (.during s!"loading {path}" ∘ .config) fun tree => Manifest.load tree path
  Work.log .info s!"{path}: {manifestSize manifest}"
  manifest.logWarnings
  return manifest

/-- Assemble a project. -/
def assemble (setting : Setting σ) (options : CommandLine.AssembleOptions) :
    Work σ CommandError Unit := do
  Work.log .stage "Loading manifest"
  let manifest ← loadProject options
  let fuels := projectFuels options (← get).tree
  match fuels with
  | some path => Work.log .debug s!"fuel: {path}"
  | none => pure ()
  let bus ← liftM (presetBus options.parameters)
  let _ ← Work.within (.during "assembling frame")
    (Install.run manifest fuels
      ⟨some options.frame, options.output, ⟨options.mode, setting.dryRun⟩, setting.parallel⟩
      (setting.prompter options.parameters.yes) bus)
  summarize setting.logFile

end ConfigPack.Command
