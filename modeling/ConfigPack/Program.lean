import ConfigPack.Command.Run
import ConfigPack.Console.Filter
import ConfigPack.Console.LogFile

/-!
# The program

A run of the program reads its command line, runs the command on the file tree, shows the log on the
console and keeps it in a file.  A run is a function of the file tree and of what surrounds the
program.
-/

namespace ConfigPack

/-- What surrounds a run. -/
structure Surroundings where
  arguments : List String
  vars : Console.Variables
  /-- The time of day. -/
  time : String
  /-- The date and the time of day. -/
  moment : String
  /-- A path at which nothing stands. -/
  staging : String
  chances : Chances

/-- How a run ended. -/
structure Exit where
  code : Nat
  /-- What was written to the standard output. -/
  output : String
  /-- What was written to the standard error. -/
  errors : String
deriving DecidableEq, Repr

namespace Program

/-- How to use the program. -/
def usage : String :=
  "Usage: config-rocket [OPTIONS] <COMMAND>\n\nCommands:\n" ++
    String.join (CommandLine.commandRules.map fun rule => s!"  {rule.1}\n")

/-- The words for a refused command line. -/
def refusalText : CommandLine.Refusal → String
  | .help => ""
  | .version => ""
  | .empty => "no command is given"
  | .missingCommand => "no command is given"
  | .unknownCommand => "there is no such command"
  | .unknownArgument => "there is no such argument"
  | .missingArgument => "a required argument is missing"
  | .invalidValue => "a value is missing or not allowed"
  | .superfluousValue => "a value is given where none belongs"
  | .repeated => "an option is given twice"

/-- How a run ends whose command line is refused or answered at once. -/
def refuse : CommandLine.Refusal → Exit
  | .help => ⟨0, usage, ""⟩
  | .version => ⟨0, Command.versionLine, ""⟩
  | refusal => ⟨2, "", s!"error: {refusalText refusal}\n\n" ++ usage⟩

/-- The lines of the log on the console, warnings apart from the others. -/
def consoleText (filter : Console.Filter) (alarms : Bool) (lines : List (LogLevel × String)) :
    String :=
  String.join ((lines.filter fun l => filter.shows l.1 && l.1.isAlarm == alarms).map fun l =>
    Console.line l.1 l.2 ++ "\n")

/-- How a run ends that logged lines and whose command has a result. -/
def finish (filter : Console.Filter) (lines : List (LogLevel × String)) :
    Except CommandError String → Exit
  | .ok printed => ⟨0, consoleText filter false lines ++ printed, consoleText filter true lines⟩
  | .error e =>
    ⟨1, consoleText filter false lines, consoleText filter true lines ++ e.report ++ "\n"⟩

/-- Begin the log of a command; the result is the path of the log file, and whether it can be
written. -/
def openLog (s : Surroundings) (name : String) (tree : FileTree) :
    FileTree × Option (String × Bool) :=
  match Console.prepareLog s.vars name tree with
  | (tree, none) => (tree, none)
  | (tree, some path) =>
    let (tree, kept) := Console.beginLog path (Console.fileHead Command.version name s.moment) tree
    (tree, some (path, kept))

/-- Keep the lines of the log, if the log file can be written. -/
def closeLog (s : Surroundings) (lines : List (LogLevel × String)) (file : Option (String × Bool))
    (tree : FileTree) : FileTree :=
  match file with
  | some (path, true) => Console.extendLog path s.time lines tree
  | _ => tree

/-- Run what a command line asks for. -/
def invoke (s : Surroundings) (i : CommandLine.Invocation) (tree : FileTree) : Exit × FileTree :=
  let (tree, file) := openLog s i.command.name tree
  let setting : Command.Setting Unit :=
    ⟨i.dryRun, i.parallel, Command.noTerminal, file.map Prod.fst, s.staging⟩
  let (result, world) := (Command.run setting i.command).run.run ⟨⟨#[], ()⟩, tree, s.chances⟩
  let lines := world.journal.lines
  let filter := Console.Filter.choose (s.vars.lookup "RUST_LOG") i.verbose
  (finish filter lines result, closeLog s lines file world.tree)

/-- Run the program. -/
def run (s : Surroundings) (tree : FileTree) : Exit × FileTree :=
  match CommandLine.read s.arguments with
  | .error refusal => (refuse refusal, tree)
  | .ok i => invoke s i tree

end Program

end ConfigPack
