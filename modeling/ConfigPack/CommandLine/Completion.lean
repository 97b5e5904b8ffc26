import ConfigPack.CommandLine.Basic

/-!
# Completions

A script for each shell that completes the first word behind the program's name to a command.
-/

namespace ConfigPack.CommandLine

/-- The names of the commands with a text between them. -/
def commandNames (between : String) : String := between.intercalate (commandRules.map Prod.fst)

/-- The script that completes command lines in a shell. -/
def Shell.script : Shell → String
  | bash => "complete -W \"" ++ commandNames " " ++ "\" config-rocket\n"
  | elvish =>
    "set edit:completion:arg-completer[config-rocket] = \x7b|@words| put " ++ commandNames " " ++
      " \x7d\n"
  | fish => "complete -c config-rocket -f -a \"" ++ commandNames " " ++ "\"\n"
  | powershell =>
    "Register-ArgumentCompleter -Native -CommandName config-rocket -ScriptBlock \x7b '" ++
      commandNames "', '" ++ "' \x7d\n"
  | zsh => "#compdef config-rocket\n_arguments \"1:command:(" ++ commandNames " " ++ ")\"\n"

end ConfigPack.CommandLine
