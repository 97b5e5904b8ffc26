import ConfigPack.Assembly.Listing
import ConfigPack.Environment.Basic
import ConfigPack.Output.Write
import ConfigPack.Substitution

/-!
# Assembling

The candidates of an assembly are the files of the frame in the order of their paths, and behind
them the built files in the order of their keys.  First it is decided which of them are taken; then
their contents are rendered; last they are written one after the other.  So nothing is written while
a candidate may still be refused, and of two candidates for one place the later counts.
-/

namespace ConfigPack

/-- Where and how an assembly writes. -/
structure AssemblySettings where
  /-- The directory of the frame. -/
  frame : Option String
  /-- The output directory. -/
  output : String
  write : WriteSettings
  /-- Whether candidates are rendered side by side. -/
  parallel : Bool
deriving DecidableEq, Repr

namespace Assembly

variable {σ : Type}

/-- Where the content of a candidate comes from. -/
inductive Source where
  /-- A file of the frame. -/
  | file (path : String)
  /-- A built text. -/
  | text (content : String)
deriving DecidableEq, Repr

/-- A candidate with the source of its content. -/
structure Job where
  candidate : Candidate
  source : Source
deriving DecidableEq, Repr

/-- The job of a file of the frame. -/
def frameJob (frame path : String) : Job := ⟨⟨path, .frame, none⟩, .file (Path.join frame path)⟩

/-- The job of a built file. -/
def builderJob (key : String) (file : BuiltFile) : Job :=
  ⟨⟨file.path, .builder key, none⟩, .text file.content⟩

/-- The jobs of the files of a frame. -/
def frameJobs (frame : Option String) : Work σ AssemblyError (List Job) :=
  match frame with
  | none => return []
  | some frame => do
    if (← get).tree.isDirectory frame then
      return (← Work.look id fun tree => listFiles tree frame).map (frameJob frame)
    Work.log .warn s!"frame directory {frame} not found"
    return []

/-- The jobs of the built files. -/
def builderJobs (environment : Environment) : List Job :=
  environment.builders.entries.map fun e => builderJob e.1 e.2

/-- Why a candidate is not taken, or nothing when it is. -/
def refusal? (environment : Environment) (candidate : Candidate) : Option FileOutcome :=
  if candidate.skipReason.isSome then some .skipped
  else if environment.isExcluded candidate.path then some .excluded
  else none

/-- The name of an outcome in the log. -/
def outcomeLabel : FileOutcome → String
  | .written => "Written"
  | .merged => "Merged"
  | .skipped => "Skipped"
  | .excluded => "Excluded"
  | .dryRun => "DryRun"

/-- Decide on one job: it is taken, or reported as refused. -/
def selectOne (environment : Environment) (bus : Bus σ) (job : Job) :
    Work σ AssemblyError (AssembledFile ⊕ Job) := do
  let candidate ← Work.withHost .hook (bus.emitCandidate job.candidate)
  match refusal? environment candidate with
  | none => return .inr { job with candidate }
  | some outcome =>
    Work.log .debug s!"{candidate.path}: {outcomeLabel outcome}"
    Work.record candidate.path outcome candidate.skipReason
    return .inl ⟨candidate.path, candidate.origin, outcome, candidate.skipReason⟩

/-- Decide on all jobs in order. -/
def select (environment : Environment) (bus : Bus σ) (jobs : List Job) :
    Work σ AssemblyError (List AssembledFile × List Job) := do
  let decided ← jobs.mapM (selectOne environment bus)
  return (decided.filterMap Sum.getLeft?, decided.filterMap Sum.getRight?)

/-- Put the values of the variables into a text. -/
def renderText (tokens : Dict String) (path text : String) : Except AssemblyError ByteArray :=
  match Substitution.substitute text tokens with
  | .ok text => .ok text.toUTF8
  | .error e => .error (.notConverged path e.passes)

/-- The content of a job; bytes that are no text are taken as they are. -/
def render (tree : FileTree) (tokens : Dict String) (job : Job) :
    Except AssemblyError ByteArray := do
  match job.source with
  | .text content => renderText tokens job.candidate.path content
  | .file path =>
    let data ← (tree.read path).mapError (.io path)
    match Utf8.decode data with
    | .ok text => renderText tokens job.candidate.path text
    | .error _ => return data

/-- The errors among results. -/
def errorsOf {ε α : Type} (results : List (Except ε α)) : List ε :=
  results.filterMap fun
    | .ok _ => none
    | .error e => some e

/-- The values of results, or one of their errors if there are any; `drawn` tells which. -/
def gather {ε α : Type} (drawn : Nat) (results : List (Except ε α)) : Except ε (List α) :=
  match errorsOf results with
  | [] => .ok (results.filterMap Except.toOption)
  | first :: others => .error ((first :: others).getD (drawn % (others.length + 1)) first)

/-- The contents of jobs.  Side by side they may all fail, and chance tells whose error is reported;
else the first is. -/
def renderAll (parallel : Bool) (tokens : Dict String) (jobs : List Job) :
    Work σ AssemblyError (List ByteArray) := do
  let drawn ← if parallel then Work.drawReport else pure 0
  Work.look id fun tree => gather drawn (jobs.map (render tree tokens))

/-- The destination of a path, which must stay inside the output directory. -/
def destination (output path : String) : Except AssemblyError String :=
  if !path.isEmpty && Path.staysInside path then .ok (Path.join output path)
  else .error (.escapes path)

/-- Write one rendered job. -/
def writeOne (settings : AssemblySettings) (bus : Bus σ) (item : Job × ByteArray) :
    Work σ AssemblyError AssembledFile := do
  let candidate := item.1.candidate
  let path ← liftM (destination settings.output candidate.path)
  let written ← Work.within .output (Output.write settings.write bus path item.2)
  Work.record candidate.path written.outcome none
  return ⟨candidate.path, candidate.origin, written.outcome, none⟩

/-- Assemble the files of an environment. -/
def run (environment : Environment) (settings : AssemblySettings) (bus : Bus σ) :
    Work σ AssemblyError Report := do
  let jobs := (← frameJobs settings.frame) ++ builderJobs environment
  Work.log .debug s!"{jobs.length} candidate files"
  let (refused, taken) ← select environment bus jobs
  let contents ← renderAll settings.parallel environment.tokens taken
  let written ← (taken.zip contents).mapM (writeOne settings bus)
  return ⟨refused ++ written⟩

end Assembly

end ConfigPack
