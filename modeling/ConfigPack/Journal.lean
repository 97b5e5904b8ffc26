/-!
# Journals

A computation that talks to the outside keeps a journal: what it logged, in order, and the state of
whoever answers its questions and listens to it.  The journal is kept also when the computation
fails.
-/

namespace ConfigPack

/-- How much a line of the log matters. -/
inductive LogLevel where
  | stage
  | info
  | debug
  | warn
  | error
  /-- What would be done if it were no trial run. -/
  | dryRun
  /-- What the globs of a selection were turned into. -/
  | glob
deriving DecidableEq, Repr

/-- What became of a file. -/
inductive FileOutcome where
  | written
  | merged
  | skipped
  | excluded
  | dryRun
deriving DecidableEq, Repr

/-- What became of the file at a path, and why it was skipped. -/
structure FileRecord where
  path : String
  outcome : FileOutcome
  reason : Option String
deriving DecidableEq, Repr

/-- An entry of a log. -/
inductive LogEntry where
  | line (level : LogLevel) (text : String)
  | file (record : FileRecord)
deriving DecidableEq, Repr

/-- The line that an entry is, if it is one. -/
def LogEntry.line? : LogEntry → Option (LogLevel × String)
  | line level text => some (level, text)
  | file _ => none

/-- The record of a file that an entry is, if it is one. -/
def LogEntry.record? : LogEntry → Option FileRecord
  | line _ _ => none
  | file record => some record

/-- A log and the state of those who answer and listen. -/
structure Journal (σ : Type) where
  log : Array LogEntry
  host : σ

/-- The lines of the log in order. -/
def Journal.lines {σ : Type} (journal : Journal σ) : List (LogLevel × String) :=
  journal.log.toList.filterMap LogEntry.line?

/-- The records of files in order. -/
def Journal.records {σ : Type} (journal : Journal σ) : List FileRecord :=
  journal.log.toList.filterMap LogEntry.record?

/-- How many files had an outcome. -/
def FileRecord.count (records : List FileRecord) (outcome : FileOutcome) : Nat :=
  (records.filter fun r => r.outcome = outcome).length

/-- A computation that logs, asks and lets others listen. -/
abbrev Talk (σ ε : Type) := ExceptT ε (StateM (Journal σ))

namespace Talk

variable {σ ε α : Type}

/-- Append an entry to the log. -/
def record (entry : LogEntry) : Talk σ ε Unit :=
  modify fun j => { j with log := j.log.push entry }

/-- Log a line. -/
def log (level : LogLevel) (text : String) : Talk σ ε Unit := record (.line level text)

/-- Let those who answer and listen act; `wrap` names what their failure means here. -/
def withHost {δ : Type} (wrap : δ → ε) (action : ExceptT δ (StateM σ) α) : Talk σ ε α :=
  ExceptT.mk fun j =>
    let (result, host) := action.run.run j.host
    (result.mapError wrap, { j with host })

end Talk

end ConfigPack
