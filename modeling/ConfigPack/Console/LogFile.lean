import ConfigPack.Console.Line
import ConfigPack.FileTree.Operations

/-!
# Log files

Every run keeps its log in a file of the cache, named for its command; a new run begins the file
anew. All lines are kept, whatever the console shows.
-/

namespace ConfigPack.Console

/-- The variables around a program. -/
abbrev Variables := List (String × String)

/-- The directory of caches: the one that is set, else one at home. -/
def cacheHome (vars : Variables) : String :=
  match vars.lookup "XDG_CACHE_HOME" with
  | some path => path
  | none =>
    let home := (vars.lookup "HOME").orElse fun _ => vars.lookup "USERPROFILE"
    Path.join (home.getD ".") ".cache"

/-- The directory of the program's log files. -/
def logDirectory (vars : Variables) : String := Path.join (cacheHome vars) "config-rocket"

/-- Create the directory of log files; the result is the path of the log file of a name, if the
directory is there. -/
def prepareLog (vars : Variables) (name : String) (tree : FileTree) :
    FileTree × Option String :=
  let directory := logDirectory vars
  match tree.makeDirectories directory with
  | (tree, .ok ()) => (tree, some (Path.join directory (name ++ ".log")))
  | (tree, .error _) => (tree, none)

/-- Begin a log file; the result says whether it can be written. -/
def beginLog (path head : String) (tree : FileTree) : FileTree × Bool :=
  match tree.write path head.toUTF8 with
  | .ok tree => (tree, true)
  | .error _ => (tree, false)

/-- Add lines to a log file, if it is still there. -/
def extendLog (path time : String) (lines : List (LogLevel × String)) (tree : FileTree) : FileTree :=
  let text := String.join (lines.map fun l => fileLine time l.1 l.2)
  let extended := do tree.write path ((← tree.read path) ++ text.toUTF8)
  extended.toOption.getD tree

end ConfigPack.Console
