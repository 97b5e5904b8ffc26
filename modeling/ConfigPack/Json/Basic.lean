import ConfigPack.Number.Binary64

/-!
# Documents

A document is a tree of scalars, sequences and objects.  The fields of an object keep the order in
which they were first written; a field that is written again keeps its place and takes the new
value.  Whole numbers and floating-point numbers are told apart.
-/

namespace ConfigPack

/-- A number of a document. -/
inductive Number where
  /-- A whole number of at most 64 bits, signed when negative. -/
  | int (value : Int)
  /-- A floating-point number. -/
  | float (value : Binary64)
deriving DecidableEq, Repr, Inhabited

/-- A document or a part of one. -/
inductive Json where
  | null
  | bool (value : Bool)
  | number (value : Number)
  | string (value : String)
  | array (items : List Json)
  | object (fields : List (String × Json))
deriving Repr, Inhabited

namespace Json

/-- Put a value into the fields of an object: in the place of the field of that name, else last. -/
def setField (name : String) (value : Json) : List (String × Json) → List (String × Json)
  | [] => [(name, value)]
  | (n, v) :: rest => if n = name then (n, value) :: rest else (n, v) :: setField name value rest

/-- The value of a field of an object; of two fields of one name the first. -/
def field? (name : String) : Json → Option Json
  | .object fields => fields.lookup name
  | _ => none

/-- The text of a string. -/
def text? : Json → Option String
  | .string s => some s
  | _ => none

/-- The fields of an object. -/
def fields? : Json → Option (List (String × Json))
  | .object fields => some fields
  | _ => none

end Json

end ConfigPack
