import ConfigPack.Manifest.Grammar

/-!
# Warnings about manifests

What is allowed in a manifest but probably not meant: keys that no section has, and built files that
are written to a path of an earlier one.
-/

namespace ConfigPack.Manifest

/-- What is probably not meant. -/
inductive Doubt where
  | unknownKey
  | rebuilt (path : String)
deriving DecidableEq, Repr

/-- The words for a doubt. -/
def Doubt.message : Doubt → String
  | unknownKey => "unknown key is ignored"
  | rebuilt path => s!"'{path}' is also built by an earlier entry; the later one wins"

/-- A part of a manifest and the doubt about it. -/
structure Warning where
  place : String
  doubt : Doubt
deriving DecidableEq, Repr

/-- The keys of a manifest. -/
def sectionKeys : List String := [parametersKey, variablesKey, buildersKey, excludesKey]

/-- A warning for every key that no section has. -/
def unknownKeys (manifest : Manifest) : List Warning :=
  let keys := (manifest.document.fields?.getD []).map Prod.fst
  (keys.filter fun key => !sectionKeys.contains key).map fun key => ⟨key, .unknownKey⟩

/-- A warning for every built file whose path is among those seen. -/
def rebuiltPaths (seen : List String) : List (String × BuilderEntry) → List Warning
  | [] => []
  | (key, entry) :: rest =>
    let warnings := rebuiltPaths (entry.path :: seen) rest
    if entry.path ∈ seen then
      ⟨within (within buildersKey key) "filePath", .rebuilt entry.path⟩ :: warnings
    else warnings

/-- All warnings about a manifest. -/
def warnings (manifest : Manifest) : List Warning :=
  unknownKeys manifest ++ rebuiltPaths [] manifest.builders

end ConfigPack.Manifest
