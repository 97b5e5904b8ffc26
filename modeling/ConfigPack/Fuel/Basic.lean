import ConfigPack.Dict
import ConfigPack.Json.Basic

/-!
# Fuels

A fuel is content that is kept apart from the manifest.  A text that begins with a mark and goes on
with the name of a fuel stands for its content.
-/

namespace ConfigPack.Fuel

/-- The mark before the name of a fuel. -/
def mark : List Char := ['f', 'u', 'e', 'l', ':']

/-- The name of the fuel that a text stands for. -/
def name? (text : String) : Option String :=
  if mark.isPrefixOf text.toList then some (String.ofList (text.toList.drop mark.length)) else none

mutual

/-- The names of the fuels in a document, in its order. -/
def namesIn : Json → List String
  | .string s => (name? s).toList
  | .array items => namesInItems items
  | .object fields => namesInFields fields
  | _ => []

/-- The names of the fuels in items. -/
def namesInItems : List Json → List String
  | [] => []
  | item :: rest => namesIn item ++ namesInItems rest

/-- The names of the fuels in fields. -/
def namesInFields : List (String × Json) → List String
  | [] => []
  | (_, value) :: rest => namesIn value ++ namesInFields rest

end

/-- The names of the fuels that a document refers to, each once and in order. -/
def referenced (document : Json) : List String := sortedTexts (namesIn document)

end ConfigPack.Fuel
