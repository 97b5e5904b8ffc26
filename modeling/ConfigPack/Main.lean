import ConfigPack.Console.Clock
import ConfigPack.Program

/-!
# The command line program

The program reads the files it may need into a tree, runs on that, and writes back what has changed.
-/

namespace ConfigPack.Program

/-- The names that lead to an absolute path. -/
def placeOf (path : String) : Place := (Path.segments path).filter (· ≠ "")

/-- The absolute path of a place. -/
def pathOf (place : Place) : String := "/" ++ "/".intercalate place

/-- Read what stands at a place and below it. -/
partial def readBelow (nodes : List (Place × Node)) (place : Place) : IO (List (Place × Node)) := do
  if nodes.any fun e => e.1 = place then return nodes
  let path := (← IO.currentDir) / pathOf place
  match (← path.symlinkMetadata.toBaseIO) with
  | .error _ => return nodes
  | .ok data =>
    match data.type with
    | .file => return (place, .file (← IO.FS.readBinFile path) FileTree.newFileMode) :: nodes
    | .symlink => do
      let target := (← IO.FS.realPath path).toString
      readBelow ((place, .link target) :: nodes) (placeOf target)
    | .dir => do
      let mut nodes := (place, .directory) :: nodes
      for entry in ← path.readDir do
        nodes ← readBelow nodes (place ++ [entry.fileName])
      return nodes
    | .other => return nodes

/-- The directories above a place. -/
def above (place : Place) : List Place := (List.range place.length).map fun n => place.take n

/-- Read what stands at some paths; the working directory is the first. -/
def readTree (roots : List String) : IO FileTree := do
  let mut nodes := []
  for root in roots do
    nodes ← readBelow nodes (placeOf root)
    for place in above (placeOf root) do
      if !(nodes.any fun e => e.1 = place) then nodes := (place, .directory) :: nodes
  return ⟨nodes, placeOf (roots.headD "/")⟩

/-- Whether two nodes are the same. -/
def sameNode : Node → Node → Bool
  | .file a _, .file b _ => a.data == b.data
  | .link a, .link b => a == b
  | .directory, .directory => true
  | _, _ => false

/-- Write back what differs between two trees. -/
def writeTree (before after : FileTree) : IO Unit := do
  for (place, node) in after.nodes do
    if !((before.node? place).any (sameNode node)) then
      match node with
      | .file data _ => do
        if !place.dropLast.isEmpty then IO.FS.createDirAll (pathOf place.dropLast)
        IO.FS.writeBinFile (pathOf place) data
      | .directory => IO.FS.createDirAll (pathOf place)
      | .link _ => pure ()
  for (place, node) in before.nodes do
    if (after.node? place).isNone then
      match node with
      | .directory => IO.FS.removeDirAll (pathOf place)
      | _ => IO.FS.removeFile (pathOf place)

/-- The variables that matter. -/
def readVariables : IO Console.Variables :=
  ["XDG_CACHE_HOME", "HOME", "USERPROFILE", "RUST_LOG"].filterMapM fun name => do
    return (← IO.getEnv name).map fun value => (name, value)

/-- Run the program on the files around it; `scratch` is a directory of its own. -/
def runHere (arguments : List String) (scratch : String) (seconds : Nat) : IO Exit := do
  let vars ← readVariables
  let cache := Console.logDirectory vars
  let roots := (← IO.currentDir).toString :: scratch :: (cache :: arguments).filter Path.isAbsolute
  let before ← readTree roots
  let surroundings : Surroundings :=
    ⟨arguments, vars, Console.timeOfDay seconds, Console.moment seconds,
      Path.join scratch "pack", .calm⟩
  let (exit, after) := run surroundings before
  writeTree before after
  return exit

end ConfigPack.Program

/-- The program; its result is the code with which it exits. -/
def main (arguments : List String) : IO UInt32 := do
  let scratch ← IO.FS.createTempDir
  let clock := (← scratch.metadata).modified
  let exit ← try ConfigPack.Program.runHere arguments scratch.toString clock.sec.toNat
    finally IO.FS.removeDirAll scratch
  (← IO.getStdout).putStr exit.output
  (← IO.getStderr).putStr exit.errors
  return exit.code.toUInt32
