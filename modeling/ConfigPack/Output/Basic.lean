import ConfigPack.Merge
import ConfigPack.Path

/-!
# Drafts

A draft is a file on its way to its place: its path and bytes, and how they are merged with what is
there already.  The extension of the path suggests how; listeners may choose otherwise.
-/

namespace ConfigPack

/-- How content is merged with what is there. -/
inductive MergeKind where
  /-- Both are read as JSON documents and merged. -/
  | json
  /-- Both are read as YAML values and merged. -/
  | yaml
  /-- The new bytes are put behind the existing ones. -/
  | concat
  /-- A listener merges. -/
  | custom
deriving DecidableEq, Repr

namespace MergeKind

/-- The kind that the extension of a path suggests. -/
def ofPath (path : String) : MergeKind :=
  match Path.lowerExtension path with
  | "json" => json
  | "yaml" | "yml" => yaml
  | _ => concat

/-- The name of a kind. -/
def label : MergeKind → String
  | json => "json"
  | yaml => "yaml"
  | concat => "concat"
  | custom => "custom"

/-- Whether documents are merged rather than bytes. -/
def isStructured : MergeKind → Bool
  | json => true
  | yaml => true
  | concat => false
  | custom => false

end MergeKind

/-- Which files are merged with what is there. -/
inductive MergeMode where
  /-- None; all are replaced. -/
  | off
  /-- All. -/
  | concat
  /-- All but those whose bytes would be put together. -/
  | deep
deriving DecidableEq, Repr

/-- Whether files of a kind are merged. -/
def MergeMode.admits (mode : MergeMode) (kind : MergeKind) : Bool :=
  match mode with
  | off => false
  | concat => true
  | deep => kind != .concat

/-- The mode when none is chosen for a single file. -/
def MergeMode.unchosen : MergeMode := .off

/-- The two documents of a merge. -/
inductive Pair where
  | json (existing incoming : Json)
  | yaml (existing incoming : Yaml)

/-- A file on its way to its place. -/
structure Draft where
  path : String
  data : ByteArray
  kind : MergeKind
  /-- Whether it is merged with what is there rather than replacing it. -/
  eligible : Bool
  /-- What is there. -/
  existing : Option ByteArray
  /-- The documents of both sides. -/
  pair : Option Pair
  /-- The merged bytes, when a listener gave them. -/
  result : Option ByteArray

/-- The draft of a file that is written to a path. -/
def Draft.start (mode : MergeMode) (path : String) (data : ByteArray) : Draft :=
  let kind := MergeKind.ofPath path
  ⟨path, data, kind, mode.admits kind, none, none, none⟩

end ConfigPack
