import ConfigPack.Json.Basic

/-!
# YAML values

A YAML value is a document whose keys may be any values and in which a value may carry a tag.
Every document without tags is one: `Yaml.ofJson` is the embedding.
-/

namespace ConfigPack

/-- A YAML value. -/
inductive Yaml where
  | null
  | bool (value : Bool)
  | number (value : Number)
  | string (value : String)
  | sequence (items : List Yaml)
  | mapping (entries : List (Yaml × Yaml))
  /-- A value that carries a tag of the application. -/
  | tagged (tag : String) (value : Yaml)
deriving Repr, Inhabited

namespace Yaml

/-- Whether two numbers are one key: floating-point numbers by value, with one value that is not a
number, and never equal to a whole number. -/
def sameNumber : Number → Number → Bool
  | .int m, .int n => m == n
  | .float x, .float y => x == y || (x.isNaN && y.isNaN) || (x.isZero && y.isZero)
  | _, _ => false

mutual

/-- Whether two values are one key; mappings are compared without regard to order. -/
def same : Yaml → Yaml → Bool
  | .null, .null => true
  | .bool b, .bool c => b == c
  | .number m, .number n => sameNumber m n
  | .string s, .string t => s == t
  | .sequence xs, .sequence ys => sameItems xs ys
  | .mapping es, .mapping fs => es.length == fs.length && sameEntries es fs
  | .tagged s v, .tagged t w => s == t && same v w
  | _, _ => false

/-- Whether two sequences agree item by item. -/
def sameItems : List Yaml → List Yaml → Bool
  | [], [] => true
  | x :: xs, y :: ys => same x y && sameItems xs ys
  | _, _ => false

/-- Whether every entry has an equal one in another mapping. -/
def sameEntries : List (Yaml × Yaml) → List (Yaml × Yaml) → Bool
  | [], _ => true
  | (k, v) :: rest, fs => fs.any (fun f => same k f.1 && same v f.2) && sameEntries rest fs

end

mutual

/-- The YAML value of a document. -/
def ofJson : Json → Yaml
  | .null => .null
  | .bool b => .bool b
  | .number n => .number n
  | .string s => .string s
  | .array items => .sequence (ofItems items)
  | .object fields => .mapping (ofFields fields)

/-- The YAML values of items. -/
def ofItems : List Json → List Yaml
  | [] => []
  | item :: rest => ofJson item :: ofItems rest

/-- The YAML entries of fields. -/
def ofFields : List (String × Json) → List (Yaml × Yaml)
  | [] => []
  | (name, value) :: rest => (.string name, ofJson value) :: ofFields rest

end

end Yaml

end ConfigPack
