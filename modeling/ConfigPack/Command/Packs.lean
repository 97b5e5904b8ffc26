import ConfigPack.Command.Setting
import ConfigPack.Command.Summary
import ConfigPack.Pack.Bundle
import ConfigPack.Pack.Selection
import ConfigPack.Pack.Unpack

/-!
# Commands on packs

Building a pack, looking into it, unpacking it, and archiving files without a manifest.
-/

namespace ConfigPack.Command

variable {σ : Type}

/-- Bundle a project. -/
def bundle (setting : Setting σ) (options : CommandLine.BundleOptions) :
    Work σ CommandError Unit := do
  Work.log .stage "Bundling"
  let bundled ← Work.within (.during "bundling config pack") (Pack.bundle
    ⟨options.frame, options.config, options.fuels, options.output, options.name, setting.dryRun⟩)
  Work.log .info s!"{bundled.entries} entries, {bundled.fuels.length} fuels"
  Work.log .info s!"path: {bundled.path}"
  Work.log .info s!"sha256: {bundled.checksum}"

/-! ## Looking into a pack -/

/-- Whether an entry is a file of a frame. -/
def isFrameFile (name : String) : Bool := name.startsWith (Pack.frameDirectory ++ "/")

/-- The ids of parameters, or that there are none. -/
def parameterRow (manifest : Manifest) : String :=
  if manifest.hasParameters then
    "parameters: " ++ ", ".intercalate (manifest.parameters.map fun p => p.id)
  else "parameters: none"

/-- The rows about a manifest. -/
def manifestRows (manifest : Manifest) : List String :=
  let fuels := Fuel.referenced manifest.document
  [parameterRow manifest, s!"variables: {manifest.tokens.length}",
    s!"excludes: {manifest.excludes.length}", s!"builder files: {manifest.builders.length}"] ++
    if fuels.isEmpty then [] else ["fuels: " ++ ", ".intercalate fuels]

/-- Tell what a pack holds. -/
def inspect (source : String) : Work σ CommandError Unit := do
  let data ← Work.look (.during s!"reading {source}" ∘ .pack) fun tree => Pack.readSource tree source
  let entries ← liftM
    ((Archive.entries data).mapError (CommandError.during "reading archive" ∘ .pack ∘ .archive))
  Work.log .stage source
  Work.log .info s!"{entries.size} entries"
  match Pack.manifest data with
  | .error failure => Work.log .warn s!"not a config pack: {failure.message}"
  | .ok manifest =>
    let files := entries.entries.filter fun e => isFrameFile e.1
    Work.log .info s!"config pack with {files.length} frame files"
    (manifestRows manifest).forM (Work.log .info)

/-! ## Unpacking -/

/-- What unpacking did. -/
def unpackedRow (output : String) : Unpacked → String
  | .installed result =>
    s!"installed into {output} ({result.report.count .written} written, " ++
      s!"{result.report.count .merged} merged)"
  | .extracted count => s!"extracted {count} files into {output} without assembly"

/-- Read the bytes of a pack, and tell about them. -/
def readPack (source : String) : Work σ CommandError ByteArray := do
  Work.log .stage "Reading pack"
  if Pack.isUrl source then Work.log .info s!"downloading {source}"
  let data ← Work.look (.during s!"reading {source}" ∘ .pack) fun tree => Pack.readSource tree source
  Work.log .debug s!"{data.size} bytes"
  return data

/-- Unpack a pack. -/
def unpack (setting : Setting σ) (options : CommandLine.UnpackOptions) :
    Work σ CommandError Unit := do
  let data ← readPack options.source
  let unpacked ← Pack.withDirectory (.during "creating staging directory") setting.staging do
    let bus ← liftM (presetBus options.parameters)
    Work.within (.during s!"unpacking {options.source}") (Pack.unpack data setting.staging
      ⟨options.checksum, options.plain, options.output, ⟨options.mode, setting.dryRun⟩,
        setting.parallel⟩
      (setting.prompter options.parameters.yes) bus)
  Work.log .info (unpackedRow options.output unpacked)
  summarize setting.logFile

/-! ## Archiving files -/

/-- The question whether to archive files. -/
def archiveQuestion (files : List String) : Question :=
  ⟨.confirm, s!"Found {files.length} files, zip them? " ++ ", ".intercalate files,
    some (.bool true)⟩

/-- Whether an answer is a yes; a question that is put aside is answered no. -/
def isYes : Except NoAnswer Value → Except CommandError Bool
  | .ok answer => .ok answer.isTruthy
  | .error .cancelled => .ok false
  | .error (.failed reason) => .error ⟨"asking for confirmation", [reason]⟩

/-- Ask whether to archive files. -/
def confirm (prompter : Prompter σ) (files : List String) : Work σ CommandError Bool := do
  let answer ← Work.withHost id
    (ExceptT.mk (Except.ok <$> (prompter (archiveQuestion files)).run) :
      ExceptT CommandError (StateM σ) (Except NoAnswer Value))
  liftM (isYes answer)

/-- Archive the files that are chosen by patterns. -/
def zip (setting : Setting σ) (options : CommandLine.ZipOptions) : Work σ CommandError Unit := do
  Work.log .stage "Zipping"
  let files ← Work.within (.during "selecting files")
    (Pack.selectFiles options.directory options.included options.excluded)
  Work.log .info s!"{files.length} files matched"
  if ← confirm (setting.prompter options.yes) files then
    let archived ← Work.within (.during s!"writing {options.output}" ∘ .pack)
      (Pack.archiveFiles options.directory files options.output setting.dryRun)
    Work.log .info s!"sha256: {archived.checksum}"
  else Work.log .warn "zipping aborted"

end ConfigPack.Command
