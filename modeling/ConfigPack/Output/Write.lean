import ConfigPack.Hook.Listener
import ConfigPack.Json.Printer
import ConfigPack.Json.Reader
import ConfigPack.Output.Error
import ConfigPack.World
import ConfigPack.Yaml.Printer
import ConfigPack.Yaml.Reader

/-!
# Writing files

A file is written in one step: listeners see its draft, what is there is merged with it where that
is allowed, and the whole content then takes its place at once.  A structured file that is blank
holds no document, so it is replaced.
-/

namespace ConfigPack

/-- How files are written. -/
structure WriteSettings where
  mode : MergeMode
  /-- Find everything out but leave the files alone. -/
  dryRun : Bool
deriving DecidableEq, Repr

/-- What became of a file that was to be written. -/
structure Written where
  /-- Where it went; listeners may have moved it. -/
  path : String
  outcome : FileOutcome
deriving DecidableEq, Repr

/-- Whether a byte is blank. -/
def isBlankByte (b : UInt8) : Bool := b = 32 || b = 9 || b = 10 || b = 12 || b = 13

/-- Whether data has only blank bytes. -/
def isBlank (data : ByteArray) : Bool := data.data.all isBlankByte

namespace Pair

/-- The text of the existing document with the incoming one merged into it; none when it has no text
in the format. -/
def merged? : Pair → Option String
  | json existing incoming => some ((existing.merge incoming).indented ++ "\n")
  | yaml existing incoming => (existing.merge incoming).print.toOption

/-- Read two texts as JSON documents. -/
def readJson (path existing incoming : String) : Except OutputError Pair := do
  let read (side : MergeSide) (text : String) : Except OutputError Json :=
    (Json.parse text).mapError fun e => .malformed path .json side (some (e.message text))
  return .json (← read .existing existing) (← read .incoming incoming)

/-- Read two texts as YAML values. -/
def readYaml (path existing incoming : String) : Except OutputError Pair := do
  let read (side : MergeSide) (text : String) : Except OutputError Yaml :=
    (Yaml.parse text).mapError fun _ => .malformed path .yaml side none
  return .yaml (← read .existing existing) (← read .incoming incoming)

end Pair

namespace Draft

/-- Read both sides of a draft as documents. -/
def readPair (draft : Draft) : Except OutputError Pair := do
  let incoming ← (Utf8.decode draft.data).mapError fun _ => .incomingNotText draft.path draft.kind
  let existing ← (Utf8.decode (draft.existing.getD .empty)).mapError
    (.existingNotText draft.path draft.kind)
  match draft.kind with
  | .yaml => Pair.readYaml draft.path existing incoming
  | _ => Pair.readJson draft.path existing incoming

/-- The draft as listeners see it before the merge, both sides read where the kind asks for it. -/
def opened (draft : Draft) : Except OutputError Draft := do
  if draft.kind.isStructured then return { draft with pair := some (← draft.readPair) }
  else return draft

/-- The merged bytes of a draft that listeners have seen. -/
def merged (draft : Draft) : Except OutputError ByteArray :=
  match draft.result with
  | some data => .ok data
  | none =>
    match draft.kind with
    | .custom => .error (.unmerged draft.path)
    | .concat => .ok (draft.existing.getD .empty ++ draft.data)
    | _ => do
      let pair ← match draft.pair with
        | some pair => .ok pair
        | none => draft.readPair
      match pair.merged? with
      | some text => .ok text.toUTF8
      | none =>
        let kind := match pair with
          | .json _ _ => .json
          | .yaml _ _ => .yaml
        .error (.unprintable draft.path kind)

end Draft

namespace Output

variable {σ : Type}

/-- The bytes of the file at a path; none when there is no file. -/
def readExisting (tree : FileTree) (path : String) : Except OutputError (Option ByteArray) :=
  match tree.read path with
  | .ok data => .ok (some data)
  | .error .notFound => .ok none
  | .error e => .error (.io path e)

/-- What a draft is merged with. -/
def mergeBase (tree : FileTree) (draft : Draft) : Except OutputError (Option ByteArray) := do
  if draft.eligible then
    let existing ← readExisting tree draft.path
    return existing.filter fun data => !(draft.kind.isStructured && isBlank data)
  else return none

/-- Create the directory above a path. -/
def ensureParent (path : String) : Work σ OutputError Unit :=
  match Path.parent? path with
  | some above =>
    if above.isEmpty then return
    else Work.changePartly (.io above) fun tree => tree.makeDirectories above
  | none => return

/-- The final draft with the bytes it stands for and how they came about. -/
def finish (draft : Draft) (bus : Bus σ) : Work σ OutputError (Draft × ByteArray × FileOutcome) := do
  match ← Work.look id fun tree => mergeBase tree draft with
  | none => return (draft, draft.data, .written)
  | some existing =>
    Work.log .debug s!"merging {draft.path} ({draft.kind.label})"
    let draft ← liftM { draft with existing := some existing }.opened
    let draft ← Work.withHost .hook (bus.emitMerge draft)
    return (draft, ← liftM draft.merged, .merged)

/-- Write a file. -/
def write (settings : WriteSettings) (bus : Bus σ) (path : String) (data : ByteArray) :
    Work σ OutputError Written := do
  let draft ← Work.withHost .hook (bus.emitWrite (Draft.start settings.mode path data))
  if !settings.dryRun then ensureParent draft.path
  let (draft, content, outcome) ← finish draft bus
  if settings.dryRun then
    Work.log .dryRun s!"would write {draft.path}"
    return ⟨draft.path, .dryRun⟩
  Work.replace (.io draft.path) draft.path content
  return ⟨draft.path, outcome⟩

end Output

end ConfigPack
