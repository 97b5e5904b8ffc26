import ConfigPack.Install
import ConfigPack.Pack.Source

/-!
# Unpacking

To unpack an archive is to check it, to put its entries into a directory of their own, and to
install the manifest found there.  An archive without a manifest is extracted as it is, when that is
wanted.
-/

namespace ConfigPack

/-- What to do with an archive that has no manifest. -/
inductive PlainArchive where
  /-- Ask whether to extract it. -/
  | ask
  | extract
  | refuse
deriving DecidableEq, Repr

/-- How an archive is unpacked; the frame is always that of the pack. -/
structure UnpackSettings where
  /-- The checksum that is expected. -/
  checksum : Option String
  plain : PlainArchive
  output : String
  write : WriteSettings
  /-- Whether candidates are rendered side by side. -/
  parallel : Bool
deriving DecidableEq, Repr

/-- What became of an archive. -/
inductive Unpacked where
  | installed (result : Installed)
  /-- It was extracted as it is. -/
  | extracted (count : Nat)

namespace Pack

variable {σ : Type}

/-- The question whether to extract an archive without a manifest. -/
def plainQuestion : Question :=
  ⟨.confirm, s!"Archive has no {manifestName}. Extract it anyway?", some (.bool false)⟩

/-- What an answer to that question means. -/
def judge : Except NoAnswer Value → Except PackError Unit
  | .ok answer => if answer.isTruthy then .ok () else .error .notAPack
  | .error .cancelled => .error .aborted
  | .error (.failed _) => .error .notAPack

/-- Go on only if an archive without a manifest is to be extracted. -/
def confirmPlain (plain : PlainArchive) (prompter : Prompter σ) : Work σ PackError Unit :=
  match plain with
  | .extract => return
  | .refuse => throw .notAPack
  | .ask => do
    let answer ← Work.withHost id
      (ExceptT.mk (Except.ok <$> (prompter plainQuestion).run) :
        ExceptT PackError (StateM σ) (Except NoAnswer Value))
    liftM (judge answer)

/-- Write an entry as it is. -/
def extractEntry (settings : UnpackSettings) (bus : Bus σ) (entry : String × ByteArray) :
    Work σ Failure Unit := do
  let (name, data) := entry
  if !Archive.isSafeName name then throw (.pack (.archive (.escapes name)))
  let written ← Work.within .output
    (Output.write settings.write bus (Path.join settings.output name) data)
  Work.record name written.outcome none

/-- Put an entry into a directory. -/
def stageEntry (staging : String) (entry : String × ByteArray) : Work σ PackError Unit := do
  let (name, data) := entry
  if !Archive.isSafeName name then throw (.archive (.escapes name))
  let path := Path.join staging name
  match Path.parent? path with
  | some above => Work.changePartly (.io above) fun tree => tree.makeDirectories above
  | none => pure ()
  Work.change (.io path) fun tree => tree.write path data

/-- Install the pack whose entries are in a directory. -/
def installStaged (staging : String) (settings : UnpackSettings) (prompter : Prompter σ)
    (bus : Bus σ) : Work σ Failure Installed := do
  let loaded ← Work.look .config fun tree => Manifest.load tree (Path.join staging manifestName)
  loaded.logWarnings
  Install.run loaded (some (Path.join staging fuelDirectory))
    ⟨some (Path.join staging frameDirectory), settings.output, settings.write, settings.parallel⟩
    prompter bus

/-- Unpack the entries of an archive. -/
def unpackEntries (entries : Dict ByteArray) (staging : String) (settings : UnpackSettings)
    (prompter : Prompter σ) (bus : Bus σ) : Work σ Failure Unpacked := do
  if entries.contains manifestName then
    entries.entries.forM fun entry => Work.within .pack (stageEntry staging entry)
    return .installed (← installStaged staging settings prompter bus)
  else
    Work.log .warn s!"archive has no {manifestName}"
    Work.within .pack (confirmPlain settings.plain prompter)
    entries.entries.forM (extractEntry settings bus)
    return .extracted entries.size

/-- Unpack an archive by way of a directory. -/
def unpack (data : ByteArray) (staging : String) (settings : UnpackSettings) (prompter : Prompter σ)
    (bus : Bus σ) : Work σ Failure Unpacked := do
  match settings.checksum with
  | some expected =>
    liftM ((verifyChecksum data expected).mapError (Failure.pack ∘ .checksum))
    Work.log .debug "checksum verified"
  | none => pure ()
  Work.log .stage "Extracting"
  let entries ← liftM ((Archive.entries data).mapError (Failure.pack ∘ .archive))
  let entries ← Work.withHost (.pack ∘ .hook) (bus.emitExtract entries)
  Work.log .info s!"{entries.size} entries extracted"
  unpackEntries entries staging settings prompter bus

/-- A computation with a new directory that is taken away at the end, whether it succeeds or not;
`wrap` names a failure to create the directory. -/
def withDirectory {α ε : Type} (wrap : Failure → ε) (directory : String) (action : Work σ ε α) :
    Work σ ε α := do
  Work.change (wrap ∘ .pack ∘ .io (Path.parentDirectory directory) ∘ .atPath directory) fun tree =>
    tree.makeDirectory directory
  ExceptT.mk do
    let result ← action.run
    modify fun w => { w with tree := (w.tree.remove directory).toOption.getD w.tree }
    return result

end Pack

end ConfigPack
