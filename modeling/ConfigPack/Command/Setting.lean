import ConfigPack.CommandLine.Basic
import ConfigPack.Command.Error
import ConfigPack.Hook.Preset
import ConfigPack.Parameters

/-!
# Settings of commands

What a command works with besides its own options.
-/

namespace ConfigPack.Command

/-- The setting of a command. -/
structure Setting (σ : Type) where
  /-- Nothing is written. -/
  dryRun : Bool
  /-- Files are rendered side by side. -/
  parallel : Bool
  /-- Puts questions to the user. -/
  terminal : Prompter σ
  /-- The file that the log is kept in. -/
  logFile : Option String
  /-- The directory that packs are unpacked in, which is created for it. -/
  staging : String

variable {σ : Type}

/-- What a question on a terminal answers when there is none. -/
def noTerminal : Prompter σ := fun _ => throw (.failed "The input device is not a TTY")

/-- Who answers the questions: the declared defaults, or the user. -/
def Setting.prompter (setting : Setting σ) (yes : Bool) : Prompter σ :=
  if yes then Prompter.defaults else setting.terminal

/-- The listeners for values that are given on the command line. -/
def presetBus (options : CommandLine.ParameterOptions) : Except CommandError (Bus σ) :=
  match Presets.ofAssignments options.assignments with
  | .ok presets => .ok (if presets.values.isEmpty then [] else [presets.listener])
  | .error bad => .error ⟨bad.message, []⟩

end ConfigPack.Command
