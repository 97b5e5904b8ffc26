import ConfigPack.Journal

/-!
# Candidates and reports

Every file of a frame and every built file is a candidate for the output directory.  A report tells
what became of each.
-/

namespace ConfigPack

/-- Where a candidate comes from. -/
inductive Origin where
  /-- It is a file of the frame. -/
  | frame
  /-- It is built from the manifest. -/
  | builder (key : String)
deriving DecidableEq, Repr

/-- A candidate as listeners see it. -/
structure Candidate where
  /-- The path below the output directory. -/
  path : String
  origin : Origin
  /-- Why it is skipped. -/
  skipReason : Option String
deriving DecidableEq, Repr

/-- Skip a candidate; the first reason counts. -/
def Candidate.skip (candidate : Candidate) (reason : String) : Candidate :=
  { candidate with skipReason := candidate.skipReason.or (some reason) }

/-- What became of a candidate. -/
structure AssembledFile where
  path : String
  origin : Origin
  outcome : FileOutcome
  reason : Option String
deriving DecidableEq, Repr

/-- What became of all candidates, in the order in which it was decided. -/
structure Report where
  files : List AssembledFile
deriving DecidableEq, Repr

namespace Report

/-- The number of files with an outcome. -/
def count (report : Report) (outcome : FileOutcome) : Nat :=
  (report.files.filter fun f => f.outcome == outcome).length

/-- What became of a path; the last decision counts. -/
def outcomeOf? (report : Report) (path : String) : Option FileOutcome :=
  (report.files.reverse.find? fun f => f.path == path).map AssembledFile.outcome

end Report

end ConfigPack
