import ConfigPack.FileTree.Error
import ConfigPack.Hook.Abort
import ConfigPack.Output.Basic
import ConfigPack.Text.Utf8

/-!
# Errors of output

Why a file cannot be merged or written.
-/

namespace ConfigPack

/-- A side of a merge. -/
inductive MergeSide where
  /-- What is there. -/
  | existing
  /-- What is written. -/
  | incoming
deriving DecidableEq, Repr

/-- The name of a side. -/
def MergeSide.label : MergeSide → String
  | existing => "existing"
  | incoming => "new"

/-- Why a file is not written. -/
inductive OutputError where
  /-- A side is not a document of the format; only some formats tell more. -/
  | malformed (path : String) (kind : MergeKind) (side : MergeSide) (detail : Option String)
  /-- What is there is not text. -/
  | existingNotText (path : String) (kind : MergeKind) (fault : Utf8.Fault)
  /-- What is written is not text. -/
  | incomingNotText (path : String) (kind : MergeKind)
  /-- No listener gave the result of a merge that is left to them. -/
  | unmerged (path : String)
  /-- The merged document has no text in the format. -/
  | unprintable (path : String) (kind : MergeKind)
  | io (path : String) (error : IoError)
  | hook (abort : Abort)

/-- The words for an error. -/
def OutputError.message : OutputError → String
  | malformed path kind side detail =>
    s!"cannot merge {path}: malformed {kind.label}: {side.label} content" ++
      match detail with
      | some text => ": " ++ text
      | none => ""
  | existingNotText path kind fault =>
    s!"cannot merge {path}: malformed {kind.label}: existing content is not UTF-8: {fault.message}"
  | incomingNotText path kind => s!"cannot merge {path}: {kind.label} merge requires UTF-8 text data"
  | unmerged path => s!"custom merge for {path} produced no result"
  | unprintable path kind => s!"failed to serialize merged {kind.label} for {path}"
  | io path error => s!"IO error writing {path}: {error.message}"
  | hook abort => abort.message

end ConfigPack
