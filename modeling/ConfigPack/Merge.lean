import ConfigPack.Yaml.Basic

/-!
# Merging documents

An incoming document is merged into an existing one: objects key by key, where existing keys keep
their place and new ones come last; arrays with the incoming items first; in every other case the
incoming document takes the place of the existing one.  YAML values merge by the same rules, a value
that carries a tag as a whole.
-/

namespace ConfigPack

namespace Json

/-- Change the first field of a name, or append one with a new value. -/
def upsert (name : String) (change : Json → Json) (new : Json) :
    List (String × Json) → List (String × Json)
  | [] => [(name, new)]
  | (n, v) :: rest =>
    if n = name then (n, change v) :: rest else (n, v) :: upsert name change new rest

mutual

/-- The existing document with the incoming one merged into it. -/
def merge : Json → Json → Json
  | .object existing, .object incoming => .object (mergeFields existing incoming)
  | .array existing, .array incoming => .array (incoming ++ existing)
  | _, incoming => incoming
termination_by structural _ incoming => incoming

/-- The existing fields with the incoming ones merged into them from left to right. -/
def mergeFields : List (String × Json) → List (String × Json) → List (String × Json)
  | existing, [] => existing
  | existing, field :: rest => mergeFields (mergeField existing field) rest
termination_by structural _ incoming => incoming

/-- The existing fields with one field merged into them. -/
def mergeField : List (String × Json) → String × Json → List (String × Json)
  | existing, (name, value) => upsert name (fun old => merge old value) value existing
termination_by structural _ field => field

end

end Json

namespace Yaml

/-- Change the first entry of a key, or append one with a new value. -/
def upsert (key : Yaml) (change : Yaml → Yaml) (new : Yaml) :
    List (Yaml × Yaml) → List (Yaml × Yaml)
  | [] => [(key, new)]
  | (k, v) :: rest =>
    if same k key then (k, change v) :: rest else (k, v) :: upsert key change new rest

mutual

/-- The existing value with the incoming one merged into it. -/
def merge : Yaml → Yaml → Yaml
  | .mapping existing, .mapping incoming => .mapping (mergeEntries existing incoming)
  | .sequence existing, .sequence incoming => .sequence (incoming ++ existing)
  | _, incoming => incoming
termination_by structural _ incoming => incoming

/-- The existing entries with the incoming ones merged into them from left to right. -/
def mergeEntries : List (Yaml × Yaml) → List (Yaml × Yaml) → List (Yaml × Yaml)
  | existing, [] => existing
  | existing, entry :: rest => mergeEntries (mergeEntry existing entry) rest
termination_by structural _ incoming => incoming

/-- The existing entries with one entry merged into them. -/
def mergeEntry : List (Yaml × Yaml) → Yaml × Yaml → List (Yaml × Yaml)
  | existing, (key, value) => upsert key (fun old => merge old value) value existing
termination_by structural _ entry => entry

end

end Yaml

end ConfigPack
