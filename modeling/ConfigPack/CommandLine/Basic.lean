import ConfigPack.CommandLine.Grammar
import ConfigPack.Digest.Checksum
import ConfigPack.Pack.Bundle
import ConfigPack.Pack.Unpack

/-!
# Command lines

A command line names a command, sets its options, and sets options that all commands share.  The
shared ones may stand before the command or behind it.
-/

namespace ConfigPack.CommandLine

/-- The values that are given for parameters. -/
structure ParameterOptions where
  /-- Assignments of values to parameters. -/
  assignments : List String
  /-- Take the declared defaults rather than asking. -/
  yes : Bool
deriving DecidableEq, Repr

/-- The options of the command that unpacks. -/
structure UnpackOptions where
  source : String
  checksum : Option String
  plain : PlainArchive
  output : String
  mode : MergeMode
  parameters : ParameterOptions
deriving DecidableEq, Repr

/-- The options of the command that assembles. -/
structure AssembleOptions where
  frame : String
  config : Option String
  fuels : Option String
  output : String
  mode : MergeMode
  parameters : ParameterOptions
deriving DecidableEq, Repr

/-- The options of the command that bundles. -/
structure BundleOptions where
  frame : Option String
  config : Option String
  fuels : Option String
  output : String
  name : String
deriving DecidableEq, Repr

/-- The options of the command that prints a checksum. -/
structure HashOptions where
  file : String
  encoding : DigestEncoding
deriving DecidableEq, Repr

/-- The options of the command that archives files. -/
structure ZipOptions where
  included : List String
  excluded : List String
  directory : String
  output : String
  /-- Do not ask before. -/
  yes : Bool
deriving DecidableEq, Repr

/-- A shell for which completions can be made. -/
inductive Shell where
  | bash
  | elvish
  | fish
  | powershell
  | zsh
deriving DecidableEq, Repr

/-- A command with its options. -/
inductive Command where
  | unpack (options : UnpackOptions)
  | assemble (options : AssembleOptions)
  | bundle (options : BundleOptions)
  | hash (options : HashOptions)
  | inspect (source : String)
  | zip (options : ZipOptions)
  | completions (shell : Shell)
  | version
deriving DecidableEq, Repr

/-- The name of a command. -/
def Command.name : Command → String
  | unpack _ => "unpack"
  | assemble _ => "assemble"
  | bundle _ => "bundle"
  | hash _ => "hash"
  | inspect _ => "inspect"
  | zip _ => "zip"
  | completions _ => "completions"
  | version => "version"

/-- A command line. -/
structure Invocation where
  verbose : Bool
  dryRun : Bool
  /-- Whether files are rendered side by side. -/
  parallel : Bool
  command : Command
deriving DecidableEq, Repr

/-! ## Words -/

/-- A merge mode by its word. -/
def modeWords : List (String × MergeMode) := [("off", .off), ("concat", .concat), ("deep", .deep)]

/-- What to do with an archive that has no manifest, by its word. -/
def plainWords : List (String × PlainArchive) :=
  [("prompt", .ask), ("continue", .extract), ("abort", .refuse)]

/-- The form of a checksum by its word. -/
def encodingWords : List (String × DigestEncoding) := [("base64url", .base64url), ("hex", .hex)]

/-- A shell by its word. -/
def shellWords : List (String × Shell) :=
  [("bash", .bash), ("elvish", .elvish), ("fish", .fish), ("powershell", .powershell), ("zsh", .zsh)]

/-- The kind of value that is one of the words. -/
def wordOf {α : Type} (words : List (String × α)) : ValueKind := .word (words.map Prod.fst)

/-- What the word under a name stands for. -/
def Matches.meaning {α : Type} (found : Matches) (name : String) (words : List (String × α))
    (default : α) : α := ((found.value? name).bind fun word => words.lookup word).getD default

/-! ## Rules -/

/-- An option with a long name only. -/
def long (name : String) (action : Action) : Rule := ⟨name, none, action⟩

/-- An option with a long and a short name. -/
def short (c : Char) (name : String) (action : Action) : Rule := ⟨name, some c, action⟩

/-- The options that all commands share. -/
def sharedRules : List Rule :=
  [short 'v' "verbose" .flag, short 'd' "dry-run" .flag, long "no-parallel" .flag,
    short 'h' "help" .help]

/-- The options in front of the command. -/
def topRules : List Rule := sharedRules ++ [short 'V' "version" .version]

/-- The options that give values for parameters. -/
def parameterRules : List Rule := [long "param" (.values .text), short 'y' "yes" .flag]

/-- The options that say where and how files are written. -/
def outputRules : List Rule :=
  [short 'o' "out" (.value .path), long "merge" (.value (wordOf modeWords))]

/-- The options that name the parts of a project. -/
def projectRules : List Rule :=
  [long "frame-dir" (.value .path), long "config" (.value .path), long "fuel-dir" (.value .path)]

/-- The rules of a command by its name. -/
def commandRules : List (String × CommandRule) :=
  [("unpack",
      ⟨sharedRules ++ parameterRules ++ outputRules ++
        [long "sha256" (.value .text), long "non-assembly" (.value (wordOf plainWords))],
        some (long "source" (.value .text)), ["source"]⟩),
    ("assemble",
      ⟨sharedRules ++ parameterRules ++ outputRules ++ projectRules, none, ["frame-dir"]⟩),
    ("bundle",
      ⟨sharedRules ++ projectRules ++ [long "out-dir" (.value .path), long "name" (.value .text)],
        none, []⟩),
    ("hash",
      ⟨sharedRules ++ [long "encoding" (.value (wordOf encodingWords))],
        some (long "file" (.value .path)), ["file"]⟩),
    ("inspect", ⟨sharedRules, some (long "source" (.value .text)), ["source"]⟩),
    ("zip",
      ⟨sharedRules ++ [short 'i' "include" (.values .text), short 'x' "exclude" (.values .text),
        long "dir" (.value .path), short 'o' "output" (.value .path), short 'y' "yes" .flag],
        none, ["include"]⟩),
    ("completions",
      ⟨sharedRules, some (long "shell" (.value (wordOf shellWords))), ["shell"]⟩),
    ("version", ⟨sharedRules, none, []⟩)]

/-! ## Reading -/

/-- The values for parameters. -/
def parametersOf (found : Matches) : ParameterOptions := ⟨found.all "param", found.has "yes"⟩

/-- The command of a name with what was given for it. -/
def commandOf (name : String) (found : Matches) : Command :=
  match name with
  | "unpack" =>
    .unpack ⟨found.value "source" "", found.value? "sha256",
      found.meaning "non-assembly" plainWords .ask, found.value "out" ".",
      found.meaning "merge" modeWords .deep, parametersOf found⟩
  | "assemble" =>
    .assemble ⟨found.value "frame-dir" "", found.value? "config", found.value? "fuel-dir",
      found.value "out" ".", found.meaning "merge" modeWords .deep, parametersOf found⟩
  | "bundle" =>
    .bundle ⟨found.value? "frame-dir", found.value? "config", found.value? "fuel-dir",
      found.value "out-dir" ".", found.value "name" "rocket-bundle"⟩
  | "hash" => .hash ⟨found.value "file" "", found.meaning "encoding" encodingWords .base64url⟩
  | "inspect" => .inspect (found.value "source" "")
  | "zip" =>
    .zip ⟨found.all "include", found.all "exclude", found.value "dir" ".",
      found.value "output" "rocket-archive.zip", found.has "yes"⟩
  | "completions" => .completions (found.meaning "shell" shellWords .bash)
  | _ => .version

/-- Whether a word is a command or asks for help. -/
def isCommandWord (word : String) : Bool := word = "help" || (commandRules.lookup word).isSome

/-- What the help command answers: help on the command that is named, if it is one. -/
def helpOn : List String → Refusal
  | [] => .help
  | [word] => if isCommandWord word then .help else .unknownCommand
  | _ => .unknownCommand

/-- Read the arguments of a command; `above` is what was given in front of it. -/
def readCommand (above : Matches) (name : String) (rule : CommandRule) (arguments : List String) :
    Except Refusal Invocation := do
  let found ← rule.read arguments
  let given (flag : String) := above.has flag || found.has flag
  return ⟨given "verbose", given "dry-run", !given "no-parallel", commandOf name found⟩

/-- Read the arguments in front of the command, and the command. -/
def readFrom (p : Progress) : List String → Except Refusal Invocation
  | [] => .error (if p.found.isEmpty then .empty else .missingCommand)
  | argument :: rest =>
    if p.plain then .error (if isCommandWord argument then .unknownArgument else .unknownCommand)
    else if argument = "help" then .error (helpOn rest)
    else
      match commandRules.lookup argument with
      | some rule => readCommand p.found argument rule rest
      | none => do
        match ← takeOptions topRules p argument with
        | some p => readFrom p rest
        | none => throw .unknownCommand

/-- Read a command line. -/
def read (arguments : List String) : Except Refusal Invocation := readFrom .start arguments

end ConfigPack.CommandLine
