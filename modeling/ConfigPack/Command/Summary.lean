import ConfigPack.Console.Line
import ConfigPack.World

/-!
# Summaries

At the end of a command that writes files, each file is listed with what became of it, and the files
are counted by outcome.
-/

namespace ConfigPack.Command

/-- How an outcome is shown: its colour, its mark and its name. -/
structure OutcomeStyle where
  outcome : FileOutcome
  style : String
  mark : String
  label : String
deriving DecidableEq, Repr

/-- The styles of the outcomes in the order in which they are counted. -/
def outcomeStyles : List OutcomeStyle :=
  [⟨.written, "32", "✓", "written"⟩, ⟨.merged, "36", "±", "merged"⟩,
    ⟨.skipped, "33", "○", "skipped"⟩, ⟨.excluded, "2", "·", "excluded"⟩,
    ⟨.dryRun, "37", "~", "dry-run"⟩]

/-- The row of a file. -/
def fileRow (file : FileRecord) : String :=
  let reason := match file.reason with
    | some reason => s!" ({reason})"
    | none => ""
  match outcomeStyles.find? fun s => s.outcome = file.outcome with
  | some s => Console.styled s.style (s.mark ++ " " ++ file.path ++ reason)
  | none => file.path ++ reason

/-- The row of counts. -/
def countRow (files : List FileRecord) : String :=
  s!"{files.length} files: " ++ ", ".intercalate (outcomeStyles.map fun s =>
    Console.styled s.style s!"{FileRecord.count files s.outcome} {s.label}")

/-- Log the summary, unless no file was recorded. -/
def summarize {σ ε : Type} (logFile : Option String) : Work σ ε Unit := do
  let files := (← get).journal.records
  if files.isEmpty then return
  Work.log .stage "Summary"
  files.forM fun file => Work.log .info (fileRow file)
  Work.log .info (countRow files)
  match logFile with
  | some path => Work.log .info (Console.styled "2" s!"log: {path}")
  | none => return

end ConfigPack.Command
